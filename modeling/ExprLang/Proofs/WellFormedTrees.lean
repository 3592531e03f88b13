import ExprLang.Proofs.ParsedTrees
import ExprLang.Proofs.PrinterRoundTrip

/-!
# The nodes of a tree that was read

Whatever source a tree is read from, its nodes are made of what the lexical grammar lets through:
names are identifiers and no keywords, by whichever of the five ways they come into the tree,
literals have no sign, and the operators are those of the grammar, as far as the options allow them.

* `IsNumber.isLiteral_or_infinite` — the literals that numbers stand for.
* `TokenContent.IsReadable` — what the tokens that the lexer makes can hold.
* `Expr.IsWellFormed`, `Expr.IsAllowed` — what a node is made of, and that the options allow it.
* `Derives.everywhere_isWellFormed`, `Derives.everywhere_isAllowed` — the trees of phrases.
* `everywhere_isWellFormed_of_parse` — the trees of sources.
-/

namespace ExprLang

/-! ## The tokens of lexemes -/

theorem digitsValue_lt {s : Text} (h : ∀ c ∈ s, c.isDigit = true) :
    digitsValue s < 10 ^ s.length := by
  induction s with
  | nil => decide
  | cons c s ih =>
    obtain ⟨hc, hs⟩ := List.forall_mem_cons.1 h
    have hdigit : digitsValue [c] ≤ 9 := by
      have hbounds := Char.isDigit_iff_toNat.1 hc
      have hends : '0'.toNat = 48 ∧ '9'.toNat = 57 := ⟨rfl, rfl⟩
      simp only [digitsValue, List.foldl_cons, List.foldl_nil]
      omega
    have hvalue := digitsValue_append [c] s
    rw [List.singleton_append] at hvalue
    rw [hvalue, List.length_cons, Nat.pow_succ]
    have hrest := ih hs
    have hfirst := Nat.mul_le_mul_right (10 ^ s.length) hdigit
    omega

theorem finite_or_infinite_ofQuotient (negative : Bool) (num den : Nat) :
    (∃ m, Double.ofQuotient negative num den = .finite negative m) ∨
      Double.ofQuotient negative num den = .infinite negative := by
  unfold Double.ofQuotient
  split
  · exact .inl ⟨_, rfl⟩
  · exact .inr rfl

theorem finite_or_infinite_ofDecimal (negative : Bool) (n : Nat) (e : Int) :
    (∃ m, Double.ofDecimal negative n e = .finite negative m) ∨
      Double.ofDecimal negative n e = .infinite negative := by
  unfold Double.ofDecimal
  dsimp only
  split
  · exact .inl ⟨_, rfl⟩
  split
  · exact .inr rfl
  split
  · exact .inl ⟨_, rfl⟩
  split
  · exact finite_or_infinite_ofQuotient _ _ _
  · exact finite_or_infinite_ofQuotient _ _ _

/-- A number stands for a literal that can be printed, or for infinity. -/
theorem IsNumber.isLiteral_or_infinite {text : Text} {value : Value} (h : IsNumber text value) :
    IsLiteral value ∨ value = .double (.infinite false) := by
  cases h with
  | @integer digits hdigits hlength =>
    refine .inl (.long (Int.natCast_nonneg _) ?_)
    rw [Int.natAbs_natCast]
    exact Nat.lt_of_lt_of_le (digitsValue_lt hdigits.2) (Nat.pow_le_pow_right (by decide) hlength)
  | double =>
    unfold Numeral.toDouble
    rcases finite_or_infinite_ofDecimal false _ _ with ⟨m, hm⟩ | hm
    · rw [hm]
      exact .inl (.double m)
    · exact .inr (congrArg _ hm)

/-- What the lexer can put into a token: a literal without a sign or infinity, and identifiers. -/
def TokenContent.IsReadable : TokenContent → Prop
  | .literal _ value _ => IsLiteral value ∨ value = .double (.infinite false)
  | .identifier name => IsIdentifier name
  | .qualifiedName qualifier name => IsIdentifier qualifier ∧ IsIdentifier name
  | .sign _ _ _ | .eof => True

namespace Lexeme

theorem isReadable_of_keyword {keyword : Text × TokenContent} (h : keyword ∈ keywords) :
    keyword.2.IsReadable := by
  have hall : ∀ keyword ∈ keywords, keyword.2.IsReadable := by
    simp only [keywords, List.forall_mem_cons, List.not_mem_nil, false_imp_iff, implies_true,
      and_true]
    refine ⟨.inl (.boolean true), .inl (.boolean false), .inl .null, ?_⟩
    and_intros <;> trivial
  exact hall keyword h

theorem Stands.isReadable {lexeme : Lexeme} {rest : Text} (h : lexeme.Stands rest) :
    lexeme.content.IsReadable := by
  cases h with
  | number hnumber => exact hnumber.isLiteral_or_infinite
  | string => exact .inl (.string _)
  | keyword hkeyword => exact isReadable_of_keyword hkeyword
  | identifier hname => exact hname
  | qualified hqualifier hname => exact ⟨hqualifier, hname⟩
  | operator => trivial

end Lexeme

/-- A function is called by identifiers. -/
theorem Callee.isIdentifier {token : Token} {qualifier : Option Text} {name : Text}
    (h : Callee token qualifier name) (hreadable : token.content.IsReadable) :
    (∀ q ∈ qualifier, IsIdentifier q) ∧ IsIdentifier name := by
  cases h with
  | simple hcontent =>
    rw [hcontent] at hreadable
    exact ⟨nofun, hreadable⟩
  | qualified hcontent =>
    rw [hcontent] at hreadable
    exact ⟨by simpa using hreadable.1, hreadable.2⟩

theorem isReadable_of_mem_tokensFrom {pieces : List Piece} {last : Text}
    (h : WellPlaced pieces last) (loc : Location) :
    ∀ t ∈ tokensFrom loc pieces, t.content.IsReadable := by
  induction pieces generalizing loc with
  | nil => nofun
  | cons piece pieces ih =>
    obtain ⟨gap, content, text⟩ := piece
    obtain ⟨-, hlexeme, hpieces⟩ := h
    exact List.forall_mem_cons.2 ⟨hlexeme.isReadable, ih hpieces _⟩

/-! ## The trees of lexemes -/

namespace Expr

/-- The node is made of what can stand in a source.  A number beyond the range of doubles is read
as infinity. -/
def IsWellFormed : Expr → Prop
  | .literal value => IsLiteral value ∨ value = .double (.infinite false)
  | .identifier name => IsIdentifier name
  | .unary operator _ => operator ∈ [.not, .negate, .empty]
  | .binary operator _ _ => operator ∈ BinaryOperator.known
  | .member _ name => IsIdentifier name
  | .call qualifier name _ => (∀ q ∈ qualifier, IsIdentifier q) ∧ IsIdentifier name
  | .conditional _ _ _ | .index _ _ => True
  | .foreign _ => False

/-- The options let the operator of the node belong to the language. -/
def IsAllowed (options : ParserOptions) : Expr → Prop
  | .conditional _ _ _ => options.conditionalAllowed = true
  | .binary operator _ _ => Permitted options operator
  | _ => True

end Expr

theorem Separated.subset {lists : List (List Token)} {body ts : List Token}
    (h : Separated lists body) (hts : ts ∈ lists) : ts ⊆ body := by
  induction h with
  | nil => cases hts
  | single =>
    rw [List.mem_singleton.1 hts]
    exact List.Subset.refl _
  | cons _ _ ih =>
    rcases List.mem_cons.1 hts with rfl | hts
    · exact List.subset_append_left _ _
    · exact fun t ht => List.mem_append_right _ (List.mem_cons_of_mem _ (ih hts ht))

section

variable {options : ParserOptions} {level : Level} {ts : List Token} {e : Expr} {n : Nat}

/-- What lexemes are read as is well-formed. -/
theorem Derives.everywhere_isWellFormed (h : Derives options level ts e n)
    (hts : ∀ t ∈ ts, t.content.IsReadable) : e.Everywhere Expr.IsWellFormed := by
  induction h with
  | plain _ ih | lift _ _ ih => exact ih hts
  | conditional _ _ _ _ _ _ ihc iht ihe =>
    simp only [List.forall_mem_append, List.forall_mem_cons] at hts
    obtain ⟨hcondition, -, hthen, -, helse⟩ := hts
    exact .node trivial (by simpa [Expr.parts] using ⟨ihc hcondition, iht hthen, ihe helse⟩)
  | @binary level _ _ _ _ _ _ _ _ _ _ hsign _ _ _ ihl ihr =>
    have hknown : ∀ entry ∈ level.operators, entry.2 ∈ BinaryOperator.known := by
      cases level <;> decide
    simp only [List.forall_mem_append, List.forall_mem_cons] at hts
    obtain ⟨hleft, -, hright⟩ := hts
    exact .node (hknown _ hsign) (by simpa [Expr.parts] using ⟨ihl hleft, ihr hright⟩)
  | unary hsign _ ih =>
    have hknown : ∀ entry ∈ frontOperators,
        entry.2 ∈ [UnaryOperator.not, .negate, .empty] := by decide
    have hoperand := (List.forall_mem_cons.1 hts).2
    exact .node (hknown _ hsign) (by simpa [Expr.parts] using ih hoperand)
  | member _ hcontent _ ih =>
    simp only [List.forall_mem_append, List.forall_mem_cons, hcontent] at hts
    obtain ⟨hobject, -, hname, -⟩ := hts
    exact .node hname (by simpa [Expr.parts] using ih hobject)
  | index _ _ _ _ iho ihk =>
    simp only [List.forall_mem_append, List.forall_mem_cons] at hts
    obtain ⟨hobject, -, hkey, -⟩ := hts
    exact .node trivial (by simpa [Expr.parts] using ⟨iho hobject, ihk hkey⟩)
  | literal hcontent | identifier hcontent =>
    have hreadable := hts _ List.mem_cons_self
    rw [hcontent] at hreadable
    exact .node hreadable (List.forall_mem_nil _)
  | call hname _ _ hseparated _ ih =>
    simp only [List.forall_mem_append, List.forall_mem_cons] at hts
    obtain ⟨hreadable, -, hbody, -⟩ := hts
    refine .node (hname.isIdentifier hreadable) fun e he => ?_
    obtain ⟨p, hp, rfl⟩ := List.mem_map.1 he
    have hsubset := hseparated.subset (List.mem_map_of_mem hp)
    exact ih p hp fun t ht => hbody t (hsubset ht)
  | group _ _ _ ih =>
    simp only [List.forall_mem_append, List.forall_mem_cons] at hts
    obtain ⟨-, hinner, -⟩ := hts
    exact ih hinner

/-- All operators of a tree that is read are allowed. -/
theorem Derives.everywhere_isAllowed (h : Derives options level ts e n) :
    e.Everywhere (Expr.IsAllowed options) := by
  induction h with
  | plain _ ih | lift _ _ ih | group _ _ _ ih => exact ih
  | conditional hallowed _ _ _ _ _ ih ih' ih'' =>
    exact .node hallowed (by simpa [Expr.parts] using ⟨ih, ih', ih''⟩)
  | binary _ _ hpermitted _ _ ih ih' =>
    exact .node hpermitted (by simpa [Expr.parts] using ⟨ih, ih'⟩)
  | unary _ _ ih | member _ _ _ ih => exact .node trivial (by simpa [Expr.parts] using ih)
  | index _ _ _ _ ih ih' => exact .node trivial (by simpa [Expr.parts] using ⟨ih, ih'⟩)
  | literal | identifier => exact .node trivial (by simp [Expr.parts])
  | call _ _ _ _ _ ih => exact .node trivial (by simpa [Expr.parts] using ih)

end

/-! ## The trees of sources -/

theorem Expr.Everywhere.and {P Q : Expr → Prop} {e : Expr} (h : e.Everywhere P)
    (h' : e.Everywhere Q) : e.Everywhere fun node => P node ∧ Q node := by
  induction h with
  | node hnode _ ih =>
    exact .node ⟨hnode, h'.here⟩ fun part hpart => ih part hpart (h'.parts part hpart)

/-- **What a source is read as is well-formed and respects the options.**  All over the tree, the
operators are those of the grammar, names are identifiers and no keywords, literals are values
without a sign, and there is no conditional, no `~=` and no `#` unless the options allow it. -/
theorem everywhere_isWellFormed_of_parse {options : ParserOptions} {source : Text} {e : Expr}
    (h : parse options source = .ok e) :
    e.Everywhere fun node => node.IsWellFormed ∧ node.IsAllowed options := by
  obtain ⟨pieces, last, n, hsplit, -, hd⟩ := parse_eq_ok_iff.1 h
  have hreadable := isReadable_of_mem_tokensFrom hsplit.wellPlaced .origin
  exact (hd.everywhere_isWellFormed hreadable).and hd.everywhere_isAllowed

/-- A call with a qualifier, a sign, a member, a number out of range and `#` in one source. -/
theorem everywhere_isWellFormed_of_parse_call :
    let options : ParserOptions := { joinAllowed := true }
    let e := Expr.binary .join
      (.call (some "fn".toList) ['f'] [.unary .negate (.member (.identifier ['a']) ['b']),
        .literal (.double (.infinite false))])
      (.literal (.string ['x']))
    parse options "fn:f(-a.b,1e999)#'x'".toList = .ok e ∧
      e.Everywhere fun node => node.IsWellFormed ∧ node.IsAllowed options := by
  intro options e
  have hsplit : Split "fn:f(-a.b,1e999)#'x'".toList [
      ⟨[], .qualifiedName "fn".toList ['f'], "fn:f".toList⟩,
      ⟨[], .sign .leftParen ['('], ['(']⟩, ⟨[], .sign .minus ['-'], ['-']⟩,
      ⟨[], .identifier ['a'], ['a']⟩, ⟨[], .sign .dot ['.'], ['.']⟩,
      ⟨[], .identifier ['b'], ['b']⟩, ⟨[], .sign .comma [','], [',']⟩,
      ⟨[], .literal .number (.double (.infinite false)), "1e999".toList⟩,
      ⟨[], .sign .rightParen [')'], [')']⟩, ⟨[], .sign .join ['#'], ['#']⟩,
      ⟨[], .literal .string (.string ['x']), "'x'".toList⟩] [] := by
    refine ⟨rfl, ⟨blank_nil, ?_, blank_nil, ?_, blank_nil, ?_, blank_nil, ?_, blank_nil, ?_,
      blank_nil, ?_, blank_nil, ?_, blank_nil, ?_, blank_nil, ?_, blank_nil, ?_, blank_nil, ?_,
      trivial⟩, blank_nil⟩
    all_goals exact Lexeme.stands_of_read_append rfl rfl
  have hparse : parse options "fn:f(-a.b,1e999)#'x'".toList = .ok e := by
    rw [parse, hsplit.ofSource_eq]
    rfl
  exact ⟨hparse, everywhere_isWellFormed_of_parse hparse⟩

end ExprLang
