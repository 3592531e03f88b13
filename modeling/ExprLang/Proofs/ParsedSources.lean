import ExprLang.Proofs.WellFormedTrees

/-!
# The source of a tree that was read

A tree that a source is read as has a source of its own, which is read as the same tree under the
same operators.  So whatever the lexer and the parser build is in reach of the printer, with one
exception: a number beyond the range of doubles is read as infinity, and that is printed as a name.

* `Expr.printable_of_everywhere`, `Derives.printable` — the trees of lexemes are printable.
* `Derives.restrict` — a phrase belongs to the language as soon as its operators do.
* `parse_toSource_of_parse` — reading the source of a tree that was read.
-/

namespace ExprLang

/-! ## The trees of lexemes -/

namespace Expr

/-- The node is no literal with an infinite value. -/
def IsFinite : Expr → Prop
  | .literal (.double (.infinite _)) => False
  | _ => True

/-- A well-formed tree is printable, infinite literals aside. -/
theorem printable_of_everywhere {e : Expr} (h : e.Everywhere IsWellFormed)
    (hfinite : e.Everywhere IsFinite) : e.Printable := by
  induction e using induction_parts with
  | node e ih =>
    have hparts : ∀ part ∈ e.parts, part.Printable := fun part hpart =>
      ih part hpart (h.parts part hpart) (hfinite.parts part hpart)
    have hnode := h.here
    cases e with
    | literal value =>
      rcases hnode with hliteral | rfl
      · exact .literal hliteral
      · exact hfinite.here.elim
    | identifier => exact .identifier hnode
    | unary => exact .unary hnode (hparts _ List.mem_cons_self)
    | binary =>
      simp only [parts, List.forall_mem_cons] at hparts
      obtain ⟨hleft, hright, -⟩ := hparts
      exact .binary hnode hleft hright
    | conditional =>
      simp only [parts, List.forall_mem_cons] at hparts
      obtain ⟨hcondition, hthen, helse, -⟩ := hparts
      exact .conditional hcondition hthen helse
    | member => exact .member (hparts _ List.mem_cons_self) hnode
    | index =>
      simp only [parts, List.forall_mem_cons] at hparts
      obtain ⟨hobject, hkey, -⟩ := hparts
      exact .index hobject hkey
    | call => exact .call hnode.1 hnode.2 hparts
    | foreign => exact hnode.elim

end Expr

section

variable {options options' : ParserOptions} {level : Level} {ts : List Token} {e : Expr} {n : Nat}

/-- What lexemes are read as is printable, infinite literals aside. -/
theorem Derives.printable (h : Derives options level ts e n)
    (hts : ∀ t ∈ ts, t.content.IsReadable) (hfinite : e.Everywhere Expr.IsFinite) : e.Printable :=
  Expr.printable_of_everywhere (h.everywhere_isWellFormed hts) hfinite

/-- A phrase belongs to the language as soon as the operators of its tree do. -/
theorem Derives.restrict (h : Derives options level ts e n)
    (hallowed : e.Everywhere (Expr.IsAllowed options')) : Derives options' level ts e n := by
  induction h with
  | plain _ ih => exact .plain (ih hallowed)
  | conditional _ hquestion hcolon _ _ _ ihc iht ihe =>
    have hparts := hallowed.parts
    simp only [Expr.parts, List.forall_mem_cons] at hparts
    obtain ⟨hc, ht, he, -⟩ := hparts
    exact .conditional hallowed.here hquestion hcolon (ihc hc) (iht ht) (ihe he)
  | lift hnext _ ih => exact .lift hnext (ih hallowed)
  | binary hnext hsign _ _ _ ihl ihr =>
    have hparts := hallowed.parts
    simp only [Expr.parts, List.forall_mem_cons] at hparts
    obtain ⟨hl, hr, -⟩ := hparts
    exact .binary hnext hsign hallowed.here (ihl hl) (ihr hr)
  | unary hsign _ ih => exact .unary hsign (ih (hallowed.parts _ List.mem_cons_self))
  | member hdot hname _ ih => exact .member hdot hname (ih (hallowed.parts _ List.mem_cons_self))
  | index hleft hright _ _ iho ihk =>
    have hparts := hallowed.parts
    simp only [Expr.parts, List.forall_mem_cons] at hparts
    obtain ⟨ho, hk, -⟩ := hparts
    exact .index hleft hright (iho ho) (ihk hk)
  | literal htype => exact .literal htype
  | identifier htype => exact .identifier htype
  | call hname hleft hright hseparated _ ih =>
    exact .call hname hleft hright hseparated fun p hp =>
      ih p hp (hallowed.parts _ (List.mem_map_of_mem hp))
  | group hleft hright _ ih => exact .group hleft hright (ih hallowed)

end

/-! ## Equal trees -/

theorem IsLiteral.equal_self {value : Value} (h : IsLiteral value) : value.equal value = true := by
  cases h <;> simp [Value.equal, Value.numeric?, Double.extended?]

namespace Expr

theorem sameAll_self {arguments : List Expr} (h : ∀ e ∈ arguments, e.same e = true) :
    sameAll arguments arguments = true := by
  induction arguments with
  | nil => rfl
  | cons e arguments ih =>
    obtain ⟨he, harguments⟩ := List.forall_mem_cons.1 h
    rw [sameAll, he, ih harguments]
    rfl

/-- A printable tree equals itself: it holds no value that is not a number. -/
theorem Printable.same_self {e : Expr} (h : e.Printable) : e.same e = true := by
  induction h with
  | literal hvalue => exact hvalue.equal_self
  | identifier => simp [same]
  | unary _ _ ih => simp [same, ih]
  | binary _ _ _ ih ih' => simp [same, ih, ih']
  | conditional _ _ _ ih ih' ih'' => simp [same, ih, ih', ih'']
  | member _ _ ih => simp [same, ih]
  | index _ _ ih ih' => simp [same, ih, ih']
  | call _ _ _ ih => simp [same, sameAll_self ih]

end Expr

/-! ## Reading the source of a tree that was read -/

theorem Expr.everywhere_isAllowed_all (depth : Nat) (e : Expr) :
    e.Everywhere (IsAllowed ⟨depth, true, true, true⟩) := by
  induction e using induction_parts with
  | node e ih =>
    refine .node ?_ ih
    cases e with
    | conditional => rfl
    | binary => exact ⟨fun _ => rfl, fun _ => rfl⟩
    | _ => trivial

/-- Two options of one depth read a source as the same tree, if both allow its operators. -/
theorem parse_congr_of_isAllowed {options options' : ParserOptions} {source : Text} {e : Expr}
    (h : e.Everywhere (Expr.IsAllowed options)) (h' : e.Everywhere (Expr.IsAllowed options'))
    (hdepth : options.maxDepth = options'.maxDepth) :
    parse options source = .ok e ↔ parse options' source = .ok e := by
  rw [parse_eq_ok_iff, parse_eq_ok_iff, hdepth]
  constructor
  · rintro ⟨pieces, last, n, hsplit, hn, hd⟩
    exact ⟨pieces, last, n, hsplit, hn, hd.restrict h'⟩
  · rintro ⟨pieces, last, n, hsplit, hn, hd⟩
    exact ⟨pieces, last, n, hsplit, hn, hd.restrict h⟩

/-- **What was read can be printed and read again.**  A tree that a source is read as, under any
options, equals itself and has a source, if none of its literals is infinite.  Under the same
operators that source is read as the very same tree exactly if the allowed depth is at least the
nesting of the tree, with one more for the whole. -/
theorem parse_toSource_of_parse {options : ParserOptions} {source : Text} {e : Expr}
    (h : parse options source = .ok e) (hfinite : e.Everywhere Expr.IsFinite) :
    e.same e = true ∧ ∃ printed, e.toSource = .ok printed ∧ ∀ depth,
      parse { options with maxDepth := depth } printed = .ok e ↔ 1 + e.nesting ≤ depth := by
  obtain ⟨pieces, last, n, hsplit, -, hd⟩ := parse_eq_ok_iff.1 h
  have hprintable := hd.printable (isReadable_of_mem_tokensFrom hsplit.wellPlaced .origin) hfinite
  obtain ⟨printed, hprinted, -⟩ :=
    @Expr.spelled_toSource ⟨0, true, true, true⟩ rfl rfl rfl _ hprintable
  refine ⟨hprintable.same_self, printed, hprinted, fun depth => ?_⟩
  obtain ⟨printed', hprinted', hspelled⟩ :=
    @Expr.spelled_toSource ⟨depth, true, true, true⟩ rfl rfl rfl _ hprintable
  cases hprinted.symm.trans hprinted'
  -- the other operators do not matter for this tree, so they may be allowed
  have hallowed : e.Everywhere (Expr.IsAllowed { options with maxDepth := depth }) :=
    hd.everywhere_isAllowed
  rw [parse_congr_of_isAllowed hallowed (e.everywhere_isAllowed_all depth) rfl]
  rcases settles_of_spells hspelled.whole with ⟨hle, hread⟩ | ⟨hlt, token, hread⟩
  · exact iff_of_true hread hle
  · refine iff_of_false ?_ (Nat.not_le.2 hlt)
    rw [hread]
    exact nofun

/-- The parentheses around a name are left out, and those around an operator are put in. -/
theorem parse_toSource_of_parse_conditional :
    let e := Expr.conditional (.member (.identifier ['a']) ['b']) (.literal (.string ['c']))
      (.unary .negate (.identifier ['d']))
    parse {} "a.b?'c':-(d)".toList = .ok e ∧ e.toSource = .ok "a.b ? \"c\" : (-d)".toList ∧
      parse { maxDepth := 4 } "a.b ? \"c\" : (-d)".toList = .ok e ∧
      ¬ parse { maxDepth := 3 } "a.b ? \"c\" : (-d)".toList = .ok e := by
  intro e
  have hsplit : Split "a.b?'c':-(d)".toList [
      ⟨[], .identifier ['a'], ['a']⟩, ⟨[], .sign .dot ['.'], ['.']⟩,
      ⟨[], .identifier ['b'], ['b']⟩, ⟨[], .sign .question ['?'], ['?']⟩,
      ⟨[], .literal .string (.string ['c']), "'c'".toList⟩, ⟨[], .sign .colon [':'], [':']⟩,
      ⟨[], .sign .minus ['-'], ['-']⟩, ⟨[], .sign .leftParen ['('], ['(']⟩,
      ⟨[], .identifier ['d'], ['d']⟩, ⟨[], .sign .rightParen [')'], [')']⟩] [] := by
    refine ⟨rfl, ⟨blank_nil, ?_, blank_nil, ?_, blank_nil, ?_, blank_nil, ?_, blank_nil, ?_,
      blank_nil, ?_, blank_nil, ?_, blank_nil, ?_, blank_nil, ?_, blank_nil, ?_, trivial⟩,
      blank_nil⟩
    all_goals exact Lexeme.stands_of_read_append rfl rfl
  have hparse : parse {} "a.b?'c':-(d)".toList = .ok e := by
    rw [parse, hsplit.ofSource_eq]
    rfl
  have hname : ∀ name, (Expr.identifier name).Everywhere Expr.IsFinite :=
    fun name => .node trivial (List.forall_mem_nil _)
  have hfinite : e.Everywhere Expr.IsFinite := by
    refine .node trivial (List.forall_mem_cons.2 ⟨?_, List.forall_mem_cons.2 ⟨?_,
      List.forall_mem_singleton.2 ?_⟩⟩)
    · exact .node trivial (List.forall_mem_singleton.2 (hname _))
    · exact .node trivial (List.forall_mem_nil _)
    · exact .node trivial (List.forall_mem_singleton.2 (hname _))
  obtain ⟨-, printed, hprinted, hread⟩ := parse_toSource_of_parse hparse hfinite
  cases hprinted
  exact ⟨hparse, rfl, (hread 4).2 (by decide), fun h => absurd ((hread 3).1 h) (by decide)⟩

/-- A number beyond the range is read as infinity, and that is printed as `inf`, which is a name.
So there are no options under which the printed source is read as an equal tree. -/
theorem parse_toSource_infinite :
    let e := Expr.literal (.double (.infinite false))
    parse {} "1e999".toList = .ok e ∧ e.toSource = .ok "inf".toList ∧
      ∀ options e', parse options "inf".toList = .ok e' → e.same e' = false := by
  intro e
  have hsplit : Split "1e999".toList
      [⟨[], .literal .number (.double (.infinite false)), "1e999".toList⟩] [] := by
    refine ⟨rfl, ⟨blank_nil, ?_, trivial⟩, blank_nil⟩
    exact Lexeme.stands_of_read_append rfl rfl
  have hparse : parse {} "1e999".toList = .ok e := by
    rw [parse, hsplit.ofSource_eq]
    rfl
  have hname : IsIdentifier ['i', 'n', 'f'] := by
    refine ⟨.intro (by decide) ?_, by simp [Lexeme.keywords]⟩
    simp only [List.forall_mem_cons, List.not_mem_nil, false_imp_iff, implies_true, and_true]
    decide
  refine ⟨hparse, rfl, fun options e' he' => ?_⟩
  have hspelled : Expr.Spelled options (.identifier ['i', 'n', 'f']) ['i', 'n', 'f'] :=
    Expr.spelled_simple rfl rfl
      ((spells_identifier hname).loosen _ (by decide) (by decide))
  rcases settles_of_spells hspelled.whole with ⟨-, hread⟩ | ⟨-, token, hread⟩
  · cases he'.symm.trans hread
    rfl
  · cases he'.symm.trans hread

end ExprLang
