import ExprLang.Proofs.LexerExactness
import ExprLang.Proofs.NumberText
import ExprLang.Proofs.ParserExactness
import ExprLang.Proofs.Spelling

/-!
# Printed expressions are read back

The source of a tree is a text whose tokens are a phrase of that tree, so the parser makes the same
tree of it, and it needs exactly the nesting that the tree has when it is printed.

* `Expr.Printable` — the trees that a source can stand for.
* `Expr.nesting` — what the source of a tree needs, by recursion on the tree.
* `Expr.spelled_toSource` — the source of a printable tree spells it, in every position.
* `parse_toSource` — reading the source of a tree gives that tree, or it is nested too deeply.
-/

namespace ExprLang

/-! ## Literals -/

/-- The values that the literals of a source have. -/
inductive IsLiteral : Value → Prop where
  | null : IsLiteral .null
  | boolean (b : Bool) : IsLiteral (.boolean b)
  | string (text : Text) : IsLiteral (.string text)
  | long {i : Int} : 0 ≤ i → i.natAbs < 10 ^ digitLimit → IsLiteral (.long i)
  | double (m : Magnitude) : IsLiteral (.double (.finite false m))

theorem stringBody_escape (c : Char) {body content : Text} (h : StringBody '"' body content) :
    StringBody '"' (stringEscape c ++ body) (c :: content) := by
  unfold stringEscape
  split
  · subst_vars
    exact .escape (by decide) h
  split
  · subst_vars
    exact .escape (by decide) h
  split
  · subst_vars
    exact .escape (by decide) h
  split
  · subst_vars
    exact .escape (by decide) h
  split
  · subst_vars
    exact .escape (by decide) h
  · exact .plain (by assumption) (by assumption) h

theorem stringBody_flatMap (text : Text) :
    StringBody '"' (text.flatMap stringEscape) text := by
  induction text with
  | nil => exact .nil
  | cons c text ih =>
    rw [List.flatMap_cons]
    exact stringBody_escape c ih

section

variable {options : ParserOptions} {value : Value} {source : Text}

theorem spells_number {text : Text} (h : IsNumber text value) :
    Spells options followers .primary text (.literal value) 0 :=
  spells_literal .number rfl fun _ hrest => .number h (hrest.stops (by decide))

/-- The source of a literal spells it; numbers are the literals that cannot be accessed. -/
theorem spells_literalSource (h : IsLiteral value) :
    ∃ source, literalSource value = .ok source ∧
      Spells options (if value.isNumber then followers else accessors) .primary source
        (.literal value) 0 := by
  cases h with
  | null =>
    refine ⟨_, rfl, spells_literal .null rfl fun _ hrest => ?_⟩
    exact .keyword (by simp [Lexeme.keywords]) (stops_accessors hrest)
  | boolean b =>
    refine ⟨_, rfl, spells_literal .boolean rfl fun _ hrest => ?_⟩
    cases b <;> exact .keyword (by simp [Lexeme.keywords]) (stops_accessors hrest)
  | string text =>
    refine ⟨_, rfl, spells_literal .string rfl fun _ _ => ?_⟩
    exact .string (.inl rfl) (stringBody_flatMap text)
  | @long i hsign hlimit =>
    refine ⟨Text.ofInt i, ?_, spells_number (isNumber_ofInt hsign hlimit)⟩
    simp only [literalSource, Value.quoted?, integerText?, if_pos hlimit]
  | double m =>
    exact ⟨m.shortest.toText, rfl, spells_number (isNumber_shortest m)⟩

end

namespace Expr

/-! ## Printable trees -/

/-- The nesting of an operand, which is put in parentheses if it is compound. -/
def operandNesting (operand : Expr) (nesting : Nat) : Nat :=
  if operand.isCompound then 1 + nesting else nesting

/-- The nesting of what is accessed; numbers are put in parentheses too. -/
def baseNesting (base : Expr) (nesting : Nat) : Nat :=
  if base.isNumericLiteral then 1 else base.operandNesting nesting

mutual

/-- What the source of a tree needs besides the nesting of the whole. -/
def nesting : Expr → Nat
  | .literal _ | .identifier _ | .foreign _ => 0
  | .unary _ operand => 1 + operand.operandNesting (nesting operand)
  | .binary _ left right =>
    max (left.operandNesting (nesting left)) (right.operandNesting (nesting right))
  | .conditional condition thenBranch elseBranch =>
    max (condition.operandNesting (nesting condition))
      (max (1 + thenBranch.operandNesting (nesting thenBranch))
        (1 + elseBranch.operandNesting (nesting elseBranch)))
  | .member object _ => object.baseNesting (nesting object)
  | .index object key => max (object.baseNesting (nesting object)) (1 + nesting key)
  | .call _ _ arguments => deepest (nestings arguments)

/-- What the arguments of a call need. -/
def nestings : List Expr → List Nat
  | [] => []
  | x :: xs => (1 + nesting x) :: nestings xs

end

/-- The trees that a source can stand for: their names are identifiers, their operators are those
that the parser builds and their literals are those that it reads. -/
inductive Printable : Expr → Prop where
  | literal {value : Value} : IsLiteral value → Printable (.literal value)
  | identifier {name : Text} : IsIdentifier name → Printable (.identifier name)
  | unary {operator : UnaryOperator} {operand : Expr} :
    operator ∈ [.not, .negate, .empty] → Printable operand → Printable (.unary operator operand)
  | binary {operator : BinaryOperator} {left right : Expr} :
    operator ∈ BinaryOperator.known → Printable left → Printable right →
    Printable (.binary operator left right)
  | conditional {condition thenBranch elseBranch : Expr} :
    Printable condition → Printable thenBranch → Printable elseBranch →
    Printable (.conditional condition thenBranch elseBranch)
  | member {object : Expr} {name : Text} :
    Printable object → IsIdentifier name → Printable (.member object name)
  | index {object key : Expr} : Printable object → Printable key → Printable (.index object key)
  | call {qualifier : Option Text} {name : Text} {arguments : List Expr} :
    (∀ q ∈ qualifier, IsIdentifier q) → IsIdentifier name → (∀ e ∈ arguments, Printable e) →
    Printable (.call qualifier name arguments)

/-! ## The source of a tree -/

/-- The source spells the tree wherever it is written: as a whole, as an operand and in front of an
access. -/
structure Spelled (options : ParserOptions) (e : Expr) (source : Text) : Prop where
  whole : Spells options followers .expression source e (1 + e.nesting)
  operand : Spells options followers .access (e.asOperand source) e (e.operandNesting e.nesting)
  base : Spells options accessors .access (e.asBase source) e (e.baseNesting e.nesting)

section

variable {options : ParserOptions} {e : Expr} {source : Text}

theorem spelled_compound (hcompound : e.isCompound = true)
    (h : Spells options followers .expression source e (1 + e.nesting)) :
    Spelled options e source := by
  have hgroup := h.group.loosen .access (by decide) (by decide)
  have hnumeric : e.isNumericLiteral = false := by
    cases e <;> first | rfl | cases hcompound
  refine ⟨h, ?_, ?_⟩
  · rw [asOperand, operandNesting, if_pos hcompound, if_pos hcompound]
    exact hgroup.mono (by decide)
  · simpa [asBase, baseNesting, hnumeric, asOperand, operandNesting, hcompound] using hgroup

theorem spelled_simple (hcompound : e.isCompound = false) (hnumeric : e.isNumericLiteral = false)
    (h : Spells options accessors .access source e e.nesting) : Spelled options e source := by
  have hfollowers : Spells options followers .access source e e.nesting := h.mono (by decide)
  refine ⟨?_, ?_, ?_⟩
  · rw [Nat.add_comm]
    exact (hfollowers.loosen _ (by decide) (by decide)).plain
  · simpa [asOperand, operandNesting, hcompound] using hfollowers
  · simpa [asBase, baseNesting, hnumeric, asOperand, operandNesting, hcompound] using h

theorem spelled_literal {value : Value}
    (h : Spells options (if value.isNumber then followers else accessors) .primary source
      (.literal value) 0) : Spelled options (.literal value) source := by
  cases hnumeric : value.isNumber with
  | false =>
    rw [if_neg (by simp [hnumeric])] at h
    exact spelled_simple rfl hnumeric (h.loosen _ (by decide) (by decide))
  | true =>
    rw [if_pos hnumeric] at h
    have hwhole := (h.loosen .disjunction (by decide) (by decide)).plain
    refine ⟨hwhole, h.loosen _ (by decide) (by decide), ?_⟩
    have hgroup := hwhole.group.loosen .access (by decide) (by decide)
    simpa [asBase, baseNesting, isNumericLiteral, hnumeric] using hgroup

/-- Every operator that the parser builds belongs to a level, and a lexeme stands for it. -/
theorem exists_level {operator : BinaryOperator} (h : operator ∈ BinaryOperator.known) :
    ∃ (level next : Level) (type : TokenType), level.tighter? = some next ∧
      (type, operator) ∈ level.operators ∧
      (∃ sign ∈ Lexeme.operators, sign.text = operator.symbol ∧ sign.type = type) ∧
      0 < level.rank ∧ level.rank < 7 ∧ next.rank = level.rank + 1 := by
  have hall : ∀ operator ∈ BinaryOperator.known,
      ∃ level ∈ [Level.disjunction, .conjunction, .equality, .relation, .sum, .product],
        ∃ entry ∈ level.operators, entry.2 = operator ∧
          ∃ sign ∈ Lexeme.operators, sign.text = operator.symbol ∧ sign.type = entry.1 := by
    decide +kernel
  obtain ⟨level, hlevel, ⟨type, _⟩, hentry, rfl, hsymbol⟩ := hall operator h
  have hrank : ∀ level ∈ [Level.disjunction, .conjunction, .equality, .relation, .sum, .product],
      0 < level.rank ∧ level.rank < 7 := by decide
  obtain ⟨hlow, hhigh⟩ := hrank level hlevel
  obtain ⟨next, htighter, hnext⟩ := Level.exists_tighter hlow (by omega)
  exact ⟨level, next, type, htighter, hentry, hsymbol, hlow, hhigh, hnext⟩

theorem toSource_unary {operator : UnaryOperator} {operand : Expr}
    (h : operand.toSource = .ok source) :
    toSource (.unary operator operand) =
      .ok (operator.symbol ++ frontGap operator ++ operand.asOperand source) := by
  cases operator <;> simp only [toSource, h] <;> rfl

theorem exists_frontOperator {operator : UnaryOperator} (h : operator ∈ [.not, .negate, .empty]) :
    ∃ type, (type, operator) ∈ frontOperators := by
  have hall : ∀ operator ∈ [UnaryOperator.not, .negate, .empty],
      ∃ entry ∈ frontOperators, entry.2 = operator := by decide
  obtain ⟨⟨type, _⟩, hentry, rfl⟩ := hall operator h
  exact ⟨type, hentry⟩

/-- The operands of a binary operator on its level. -/
theorem spells_binary {operator : BinaryOperator} {left right : Expr}
    {leftSource rightSource : Text}
    (hknown : operator ∈ BinaryOperator.known) (hpermitted : Permitted options operator)
    (hleft : Spelled options left leftSource) (hright : Spelled options right rightSource) :
    Spells options followers .expression
      (left.asOperand leftSource ++ ' ' :: operator.symbol ++ ' ' :: right.asOperand rightSource)
      (.binary operator left right) (1 + nesting (.binary operator left right)) := by
  obtain ⟨level, next, type, htighter, hentry, hsymbol, hlow, hhigh, hnext⟩ := exists_level hknown
  have hleftLevel := level.leftOperand_rank hlow
  have haccess : Level.access.rank = 8 := rfl
  have h := Spells.binary htighter hentry hsymbol hpermitted
    (hleft.operand.loosen _ hleftLevel.1 (by omega)) (hright.operand.loosen _ (by omega) (by omega))
  rw [Nat.add_comm]
  exact (h.loosen .disjunction (by decide) hlow).plain

theorem spellAll_toSources {arguments : List Expr}
    (h : ∀ e ∈ arguments, ∃ source, e.toSource = .ok source ∧ Spelled options e source) :
    ∃ sources, toSources arguments = .ok sources ∧
      SpellAll options sources arguments (nestings arguments) := by
  induction arguments with
  | nil => exact ⟨[], rfl, .nil⟩
  | cons e arguments ih =>
    obtain ⟨source, hsource, hspelled⟩ := h e List.mem_cons_self
    obtain ⟨sources, hsources, hall⟩ := ih fun e' he' => h e' (List.mem_cons_of_mem _ he')
    exact ⟨source :: sources, by rw [toSources, hsource, hsources]; rfl, .cons hspelled.whole hall⟩

end

/-- **The source of a printable tree spells it** in every position where it is written, if the
options let all operators belong to the language. -/
theorem spelled_toSource {options : ParserOptions}
    (hconditional : options.conditionalAllowed = true)
    (hmatch : options.matchAllowed = true) (hjoin : options.joinAllowed = true) {e : Expr}
    (h : e.Printable) : ∃ source, e.toSource = .ok source ∧ Spelled options e source := by
  induction h with
  | literal hvalue =>
    obtain ⟨source, hsource, h⟩ := spells_literalSource hvalue
    exact ⟨source, hsource, spelled_literal h⟩
  | @identifier name hname =>
    refine ⟨name, rfl, spelled_simple rfl rfl ?_⟩
    exact (spells_identifier hname).loosen _ (by decide) (by decide)
  | @unary operator operand hoperator hoperand ih =>
    obtain ⟨source, hsource, hspelled⟩ := ih
    obtain ⟨type, htype⟩ := exists_frontOperator hoperator
    refine ⟨_, toSource_unary hsource, spelled_compound rfl ?_⟩
    have hfront := Spells.unary (hspelled.operand.loosen _ (by decide) (by decide)) htype
    rw [nesting, Nat.add_comm 1, Nat.add_comm 1]
    exact (hfront.loosen _ (by decide) (by decide)).plain
  | @binary operator left right hoperator hleft hright ihl ihr =>
    obtain ⟨leftSource, hleftSource, hleft⟩ := ihl
    obtain ⟨rightSource, hrightSource, hright⟩ := ihr
    refine ⟨_, by rw [toSource, hleftSource, hrightSource]; rfl, spelled_compound rfl ?_⟩
    exact spells_binary hoperator ⟨fun _ => hmatch, fun _ => hjoin⟩ hleft hright
  | @conditional condition thenBranch elseBranch hcondition hthen helse ihc iht ihe =>
    obtain ⟨conditionSource, hconditionSource, hc⟩ := ihc
    obtain ⟨thenSource, hthenSource, ht⟩ := iht
    obtain ⟨elseSource, helseSource, he⟩ := ihe
    refine ⟨_, by rw [toSource, hconditionSource, hthenSource, helseSource]; rfl,
      spelled_compound rfl ?_⟩
    have hthen := (ht.operand.loosen .disjunction (by decide) (by decide)).plain
    have helse := (he.operand.loosen .disjunction (by decide) (by decide)).plain
    rw [nesting, Nat.add_comm 1 (max _ _), Nat.add_comm 1 (operandNesting _ _),
      Nat.add_comm 1 (operandNesting _ _)]
    exact .conditional hconditional (hc.operand.loosen _ (by decide) (by decide)) hthen helse
  | @member object name hobject hname ih =>
    obtain ⟨source, hsource, hspelled⟩ := ih
    refine ⟨_, by rw [toSource, hsource]; rfl, spelled_simple rfl rfl ?_⟩
    exact hspelled.base.member hname
  | @index object key hobject hkey iho ihk =>
    obtain ⟨source, hsource, hspelled⟩ := iho
    obtain ⟨keySource, hkeySource, hkeySpelled⟩ := ihk
    refine ⟨_, by rw [toSource, hsource, hkeySource]; rfl, spelled_simple rfl rfl ?_⟩
    exact hspelled.base.index hkeySpelled.whole
  | @call qualifier name arguments hqualifier hname harguments ih =>
    obtain ⟨sources, hsources, hspelled⟩ := spellAll_toSources ih
    refine ⟨_, by rw [toSource, hsources]; rfl, spelled_simple rfl rfl ?_⟩
    rw [nesting]
    exact (Spells.call hqualifier hname hspelled).loosen _ (by decide) (by decide)

end Expr

/-! ## Reading the source of a tree -/

/-- A text that spells an expression is read as that expression within the nesting that it needs,
and is too deep otherwise. -/
theorem settles_of_spells {options : ParserOptions} {source : Text} {e : Expr} {n : Nat}
    (h : Spells options followers .expression source e n) :
    Parser.Settles n options.maxDepth (parse options source) e := by
  obtain ⟨pieces, hwritten, hplaced, htokens⟩ := h [] [] blank_nil follows_nil
  rw [List.nil_append, List.append_nil] at hwritten
  have hderives := htokens .origin
  have hstream : TokenStream.ofSource source =
      ⟨tokensFrom .origin pieces, .ok (.eof (Location.origin.after source))⟩ := by
    rw [← hwritten]
    exact Lexer.all_written hplaced blank_nil
  have hends : (TokenStream.ofSource source).Ends := by
    rw [hstream]
    exact ⟨_, rfl, rfl⟩
  refine parseTokens_of_derives hends ?_
  rw [hstream, untilEnd_eq_self fun t ht => hderives.ne_eof ht]
  exact hderives

/-- **Printed expressions are read back.**  If the options let all operators belong to the language,
every printable tree has a source.  It is read as the very same tree if and only if the allowed
depth is at least the nesting of the tree, with one more for the whole; otherwise it is refused
because it is nested too deeply. -/
theorem parse_toSource {options : ParserOptions} (hconditional : options.conditionalAllowed = true)
    (hmatch : options.matchAllowed = true) (hjoin : options.joinAllowed = true) {e : Expr}
    (h : e.Printable) :
    ∃ source, e.toSource = .ok source ∧
      (parse options source = .ok e ↔ 1 + e.nesting ≤ options.maxDepth) ∧
      (¬ 1 + e.nesting ≤ options.maxDepth →
        ∃ token, parse options source = .error (.parse ⟨.tooDeep, token⟩)) := by
  obtain ⟨source, hsource, hspelled⟩ := Expr.spelled_toSource hconditional hmatch hjoin h
  refine ⟨source, hsource, ?_⟩
  rcases settles_of_spells hspelled.whole with ⟨hle, hread⟩ | ⟨hlt, token, hread⟩
  · exact ⟨iff_of_true hread hle, fun hnot => absurd hle hnot⟩
  · refine ⟨iff_of_false ?_ (Nat.not_le.2 hlt), fun _ => ⟨token, hread⟩⟩
    rw [hread]
    intro heq
    cases heq

/-- The minus sign and the parentheses behind it are one level each below the whole. -/
theorem parse_toSource_negated_sum :
    let tree := Expr.unary .negate
      (.binary .add (.member (.identifier ['a']) ['b']) (.literal (.string ['c'])))
    tree.Printable ∧ tree.toSource = .ok "-(a.b + \"c\")".toList ∧
      parse ⟨3, true, true, true⟩ "-(a.b + \"c\")".toList = .ok tree ∧
      ∃ token, parse ⟨2, true, true, true⟩ "-(a.b + \"c\")".toList =
        .error (.parse ⟨.tooDeep, token⟩) := by
  have ha : IsIdentifier ['a'] := ⟨.intro (by decide) (by simp), by simp [Lexeme.keywords]⟩
  have hb : IsIdentifier ['b'] := ⟨.intro (by decide) (by simp), by simp [Lexeme.keywords]⟩
  have htree : Expr.Printable (.unary .negate
      (.binary .add (.member (.identifier ['a']) ['b']) (.literal (.string ['c'])))) :=
    .unary (by decide)
      (.binary (by decide) (.member (.identifier ha) hb) (.literal (.string ['c'])))
  obtain ⟨source, hsource, hread, -⟩ := @parse_toSource ⟨3, true, true, true⟩ rfl rfl rfl _ htree
  obtain ⟨source', hsource', -, hdeep⟩ := @parse_toSource ⟨2, true, true, true⟩ rfl rfl rfl _ htree
  cases hsource
  cases hsource'
  exact ⟨htree, rfl, hread.2 (by decide), hdeep (by decide)⟩

end ExprLang
