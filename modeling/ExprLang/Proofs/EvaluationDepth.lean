import ExprLang.Proofs.EvaluationRules
import ExprLang.Proofs.SourceReading

/-!
# How deeply evaluations are nested

An evaluation of a tree starts further ones: for the operands of a whole spine, for the base and the
keys of a whole chain, for the arguments of a call.  The height of a tree is the number of
evaluations that can be under way at a time, one inside the other.  It does not grow with the length
of spines, chains and lists of arguments; what it grows with is the nesting that the parser bounds.

* `Expr.inner`, `Expr.height` — the trees that an evaluation starts evaluations of, and the height.
* `evaluateStep`, `evaluate_eq_evaluateStep` — a single evaluation, with the further ones left open.
* `evaluateWithin_eq_evaluate` — an evaluator with a stack as deep as the tree is high is enough.
* `Derives.shallow` — level by level, the height of a phrase is bounded by its nesting.
* `height_le_of_parse` — the height of a tree that was read is bounded by the allowed depth.
-/

namespace ExprLang

open Evaluation

/-! ## Heights -/

namespace Expr

/-- The leftmost operand of a spine and its right operands. -/
def spineOperands : Expr → List Expr
  | .binary _ left right => left.spineOperands ++ [right]
  | e => [e]

/-- The base of a chain and its keys. -/
def chainOperands : Expr → List Expr
  | .member object _ => object.chainOperands
  | .index object key => object.chainOperands ++ [key]
  | e => [e]

/-- The trees that the evaluation of a tree starts evaluations of. -/
def inner : Expr → List Expr
  | .binary operator left right => (binary operator left right).spineOperands
  | .member object name => (member object name).chainOperands
  | .index object key => (index object key).chainOperands
  | e => e.parts

section

variable {e x : Expr}

theorem sizeOf_spineOperand_le (h : x ∈ e.spineOperands) : sizeOf x ≤ sizeOf e := by
  fun_induction spineOperands e with
  | case1 operator left right ih =>
    rcases List.mem_append.1 h with h | h
    · exact Nat.le_of_lt (Nat.lt_of_le_of_lt (ih h) (sizeOf_left_lt operator left right))
    · rw [List.mem_singleton.1 h]
      exact Nat.le_of_lt (sizeOf_right_lt operator left right)
  | case2 => exact Nat.le_of_eq (congrArg sizeOf (List.mem_singleton.1 h))

theorem sizeOf_chainOperand_le (h : x ∈ e.chainOperands) : sizeOf x ≤ sizeOf e := by
  fun_induction chainOperands e with
  | case1 object name ih =>
    exact Nat.le_of_lt (Nat.lt_of_le_of_lt (ih h) (sizeOf_object_lt_member object name))
  | case2 object key ih =>
    rcases List.mem_append.1 h with h | h
    · exact Nat.le_of_lt (Nat.lt_of_le_of_lt (ih h) (sizeOf_object_lt_index object key))
    · rw [List.mem_singleton.1 h]
      exact Nat.le_of_lt (sizeOf_key_lt object key)
  | case3 => exact Nat.le_of_eq (congrArg sizeOf (List.mem_singleton.1 h))

theorem sizeOf_inner_lt (h : x ∈ e.inner) : sizeOf x < sizeOf e := by
  cases e with
  | binary operator left right =>
    rcases List.mem_append.1 h with h | h
    · exact Nat.lt_of_le_of_lt (sizeOf_spineOperand_le h) (sizeOf_left_lt operator left right)
    · rw [List.mem_singleton.1 h]
      exact sizeOf_right_lt operator left right
  | member object name =>
    have hobject : x ∈ object.chainOperands := h
    exact Nat.lt_of_le_of_lt (sizeOf_chainOperand_le hobject) (sizeOf_object_lt_member object name)
  | index object key =>
    rcases List.mem_append.1 h with h | h
    · exact Nat.lt_of_le_of_lt (sizeOf_chainOperand_le h) (sizeOf_object_lt_index object key)
    · rw [List.mem_singleton.1 h]
      exact sizeOf_key_lt object key
  | _ => exact sizeOf_part_lt h

end

/-- The number of evaluations that the evaluation of a tree can have under way at a time, one inside
the other, itself included. -/
def height (e : Expr) : Nat :=
  1 + deepest (e.inner.attach.map fun x => x.1.height)
termination_by sizeOf e
decreasing_by exact sizeOf_inner_lt x.2

section

variable {e x : Expr} {n : Nat}

theorem height_eq (e : Expr) : e.height = 1 + deepest (e.inner.map height) := by
  rw [height, List.attach_map_val]

theorem height_le_succ_iff : e.height ≤ n + 1 ↔ ∀ x ∈ e.inner, x.height ≤ n := by
  rw [height_eq, Nat.add_comm, Nat.add_le_add_iff_right, deepest_le_iff, List.forall_mem_map]

theorem height_pos (e : Expr) : 0 < e.height := by
  rw [height_eq]
  omega

theorem height_lt_of_inner (h : x ∈ e.inner) : x.height < e.height := by
  obtain ⟨n, hn⟩ := Nat.exists_eq_add_of_lt e.height_pos
  have := height_le_succ_iff.1 (show e.height ≤ n + 1 by omega) x h
  omega

theorem height_spineOperand_le (h : x ∈ e.spineOperands) : x.height ≤ e.height := by
  cases e with
  | binary => exact Nat.le_of_lt (height_lt_of_inner h)
  | _ => exact Nat.le_of_eq (congrArg height (List.mem_singleton.1 h))

theorem height_chainOperand_le (h : x ∈ e.chainOperands) : x.height ≤ e.height := by
  cases e with
  | member | index => exact Nat.le_of_lt (height_lt_of_inner h)
  | _ => exact Nat.le_of_eq (congrArg height (List.mem_singleton.1 h))

end

end Expr

/-! ## The evaluator with a bounded stack -/

namespace Accessor

/-- The key of a link, if that is an expression. -/
def keys : Accessor → List Expr
  | .name _ => []
  | .key e => [e]

/-- What a link of a chain looks up, where `inner` evaluates its key. -/
def lookedUp (inner : Expr → Evaluation Value) : Accessor → Evaluation Value
  | .name text => return .string text
  | .key e => inner e

end Accessor

/-- A single evaluation, in which `inner` does the evaluations that it starts. -/
def evaluateStep (host : Host) (inner : Expr → Evaluation Value) : Expr → Evaluation Value
  | .literal value => return value
  | .identifier name => host.askVariable name
  | .unary operator operand => do
    ofResult (operator.apply (← inner operand))
  | .binary operator left right => do
    let spine := left.spineOnto [(operator, right)]
    let first ← inner spine.1
    spine.2.foldlM (fun value link => applyBinary link.1 value (inner link.2)) first
  | .conditional condition thenBranch elseBranch => do
    if ← ofCoercion (← inner condition).toBoolean then inner thenBranch else inner elseBranch
  | .member object name => do
    let chain := object.chainOnto [.name name]
    let base ← inner chain.1
    walk (Accessor.lookedUp inner) chain.2 base
  | .index object key => do
    let chain := object.chainOnto [.key key]
    let base ← inner chain.1
    walk (Accessor.lookedUp inner) chain.2 base
  | .call qualifier name arguments => do
    let function ← host.askFunction qualifier name
    let values ← arguments.mapM inner
    Host.call qualifier name function values
  | .foreign name => throw (.unknownNode name)

/-- The evaluator with a stack for so many evaluations, one inside the other, and what happens
beyond. -/
def evaluateWithin (host : Host) (beyond : Evaluation Value) : Nat → Expr → Evaluation Value
  | 0, _ => beyond
  | depth + 1, e => evaluateStep host (evaluateWithin host beyond depth) e

section

variable {host : Host} {e x : Expr} {f g : Expr → Evaluation Value}

/-- The evaluator is the step that starts the evaluator again. -/
theorem evaluate_eq_evaluateStep (e : Expr) :
    evaluate host e = evaluateStep host (evaluate host) e := by
  have hkey : accessorKey host = Accessor.lookedUp (evaluate host) := by
    funext link
    cases link <;> rfl
  cases e with
  | literal value => rw [evaluate_literal, evaluateStep]
  | identifier name => rw [evaluate_identifier, evaluateStep]
  | unary operator operand => rw [evaluate_unary, evaluateStep]
  | binary operator left right =>
    rw [evaluate_binary_eq_foldSpine, evaluateStep]
    rfl
  | conditional condition thenBranch elseBranch => rw [evaluate_conditional, evaluateStep]
  | member object name => rw [evaluate_member_eq_walkChain, walkChain, hkey, evaluateStep]
  | index object key => rw [evaluate_index_eq_walkChain, walkChain, hkey, evaluateStep]
  | call qualifier name arguments => rw [evaluate_call, evaluateStep]
  | foreign name => rw [evaluate_foreign, evaluateStep]

theorem spineOnto_operands (e : Expr) (links : List (BinaryOperator × Expr)) :
    (e.spineOnto links).1 :: (e.spineOnto links).2.map (·.2) =
      e.spineOperands ++ links.map (·.2) := by
  fun_induction Expr.spineOnto e links with
  | case1 operator left right links ih =>
    rw [ih, Expr.spineOperands, List.append_assoc, List.map_cons, List.singleton_append]
  | case2 e links hbinary =>
    cases e with
    | binary operator left right => exact absurd rfl (hbinary operator left right)
    | _ => rfl

theorem chainOnto_operands (e : Expr) (links : List Accessor) :
    (e.chainOnto links).1 :: (e.chainOnto links).2.flatMap Accessor.keys =
      e.chainOperands ++ links.flatMap Accessor.keys := by
  fun_induction Expr.chainOnto e links with
  | case1 object name links ih => exact ih
  | case2 object key links ih =>
    rw [ih, Expr.chainOperands, List.append_assoc]
    rfl
  | case3 e links hmember hindex =>
    cases e with
    | member object name => exact absurd rfl (hmember object name)
    | index object key => exact absurd rfl (hindex object key)
    | _ => rfl

theorem foldlM_congr {α β : Type} {step step' : β → α → Evaluation β} {items : List α}
    (h : ∀ item ∈ items, ∀ b, step b item = step' b item) (b : β) :
    items.foldlM step b = items.foldlM step' b := by
  induction items generalizing b with
  | nil => rfl
  | cons item items ih =>
    obtain ⟨hitem, hitems⟩ := List.forall_mem_cons.1 h
    rw [List.foldlM_cons, List.foldlM_cons, hitem b]
    exact bind_congr fun b' => ih hitems b'

theorem walk_congr {α : Type} {key key' : α → Evaluation Value} {links : List α}
    (h : ∀ link ∈ links, key link = key' link) (object : Value) :
    walk key links object = walk key' links object := by
  induction links generalizing object with
  | nil => rfl
  | cons link links ih =>
    obtain ⟨hlink, hlinks⟩ := List.forall_mem_cons.1 h
    rw [walk_cons, walk_cons, hlink]
    exact bind_congr fun value => ih hlinks value

theorem mapM_congr {items : List Expr} (h : ∀ item ∈ items, f item = g item) :
    items.mapM f = items.mapM g := by
  induction items with
  | nil => rfl
  | cons item items ih =>
    obtain ⟨hitem, hitems⟩ := List.forall_mem_cons.1 h
    rw [List.mapM_cons, List.mapM_cons, hitem, ih hitems]

/-- A chain whose base and keys are evaluated in the same way. -/
theorem chain_congr {object : Expr} (links : List Accessor)
    (h : ∀ x ∈ object.chainOperands ++ links.flatMap Accessor.keys, f x = g x) :
    (do
      let base ← f (object.chainOnto links).1
      walk (Accessor.lookedUp f) (object.chainOnto links).2 base) =
    (do
      let base ← g (object.chainOnto links).1
      walk (Accessor.lookedUp g) (object.chainOnto links).2 base) := by
  rw [← chainOnto_operands] at h
  obtain ⟨hbase, hkeys⟩ := List.forall_mem_cons.1 h
  rw [hbase]
  refine bind_congr fun base => walk_congr (fun link hlink => ?_) base
  cases link with
  | name name => rfl
  | key key => exact hkeys key (List.mem_flatMap.2 ⟨_, hlink, List.mem_cons_self⟩)

/-- A step depends on the evaluations that it starts, and on no others. -/
theorem evaluateStep_congr (h : ∀ x ∈ e.inner, f x = g x) :
    evaluateStep host f e = evaluateStep host g e := by
  cases e with
  | literal | identifier | foreign => rfl
  | unary operator operand =>
    rw [evaluateStep, evaluateStep, h operand List.mem_cons_self]
  | binary operator left right =>
    have hoperands : ∀ x ∈ left.spineOperands ++ [(operator, right)].map (·.2), f x = g x := h
    rw [← spineOnto_operands] at hoperands
    obtain ⟨hfirst, hlinks⟩ := List.forall_mem_cons.1 hoperands
    rw [evaluateStep, evaluateStep, hfirst]
    refine bind_congr fun first => foldlM_congr (fun link hlink value => ?_) first
    rw [hlinks link.2 (List.mem_map_of_mem hlink)]
  | conditional condition thenBranch elseBranch =>
    simp only [Expr.inner, Expr.parts, List.forall_mem_cons] at h
    obtain ⟨hcondition, hthen, helse, -⟩ := h
    rw [evaluateStep, evaluateStep, hcondition, hthen, helse]
  | member object name =>
    refine chain_congr [.name name] fun x hx => ?_
    have hobject : x ∈ object.chainOperands := by simpa [Accessor.keys] using hx
    exact h x hobject
  | index object key => exact chain_congr [.key key] h
  | call qualifier name arguments =>
    have harguments : arguments.mapM f = arguments.mapM g := mapM_congr h
    rw [evaluateStep, evaluateStep, harguments]

/-- **A stack as deep as the tree is high is enough.**  What would happen beyond its end never
does. -/
theorem evaluateWithin_eq_evaluate {beyond : Evaluation Value} {depth : Nat}
    (h : e.height ≤ depth) : evaluateWithin host beyond depth e = evaluate host e := by
  induction depth generalizing e with
  | zero => exact absurd h (Nat.not_le.2 e.height_pos)
  | succ depth ih =>
    rw [evaluateWithin, evaluate_eq_evaluateStep]
    exact evaluateStep_congr fun x hx => ih (Expr.height_le_succ_iff.1 h x hx)

end

/-! ## The height of a phrase -/

namespace Level

/-- By how much the height of a phrase of the level may exceed nine times its nesting. -/
def slack : Level → Nat
  | .expression => 0
  | .disjunction => 8
  | .conjunction => 7
  | .equality => 6
  | .relation => 5
  | .sum => 4
  | .product => 3
  | .operand => 2
  | .access => 2
  | .primary => 1

theorem slack_tighter {level next : Level} (h : level.tighter? = some next) :
    next.slack ≤ level.slack ∧
      (level.operators ≠ [] ∨ level = .access → next.slack < level.slack) := by
  cases level <;> cases h <;> decide

theorem slack_leftOperand (level : Level) : level.leftOperand.slack ≤ level.slack := by
  cases level <;> decide

theorem operators_leftOperand {level : Level} (h : level.operators ≠ []) :
    level.leftOperand.operators ≠ [] := by
  cases level <;> first | exact h | decide

end Level

/-- The height of a tree in terms of the nesting of a phrase for it.  The operands of a spine stay
below the bound if the level has operators, so that one more operand does not raise it; in the same
way the base and the keys of a chain stay below it. -/
structure Expr.Shallow (e : Expr) (level : Level) (nesting : Nat) : Prop where
  height_le : e.height ≤ 9 * nesting + level.slack
  spine_lt : level.operators ≠ [] →
    ∀ x ∈ e.spineOperands, x.height < 9 * nesting + level.slack
  chain_lt : level = .access → ∀ x ∈ e.chainOperands, x.height < 9 * nesting + level.slack

section

variable {options : ParserOptions} {level next : Level} {ts : List Token} {e : Expr} {n : Nat}

/-- At a level without operators that is not the level of chains, only the height counts. -/
theorem Expr.Shallow.of_height_le (hoperators : level.operators = []) (haccess : level ≠ .access)
    (h : e.height ≤ 9 * n + level.slack) : e.Shallow level n :=
  ⟨h, fun hne => absurd hoperators hne, fun heq => absurd heq haccess⟩

theorem Expr.Shallow.lift (hnext : level.tighter? = some next) (h : e.Shallow next n) :
    e.Shallow level n := by
  obtain ⟨hle, hlt⟩ := Level.slack_tighter hnext
  have hheight := h.height_le
  refine ⟨by omega, fun hoperators x hx => ?_, fun haccess x hx => ?_⟩
  · have := Expr.height_spineOperand_le hx
    have := hlt (.inl hoperators)
    omega
  · have := Expr.height_chainOperand_le hx
    have := hlt (.inr haccess)
    omega

/-- The trees that the evaluation of a tree starts evaluations of are all below a bound for it. -/
theorem Expr.height_le_of_inner {bound : Nat} (hpos : 0 < bound)
    (h : ∀ x ∈ e.inner, x.height < bound) : e.height ≤ bound := by
  obtain ⟨m, rfl⟩ := Nat.exists_eq_succ_of_ne_zero (Nat.ne_of_gt hpos)
  exact Expr.height_le_succ_iff.2 fun x hx => Nat.le_of_lt_succ (h x hx)

/-- **Level by level, the height of a phrase is bounded by its nesting.**  From one nesting to the
next there are at most nine evaluations one inside the other: those of a conditional, of six spines,
of a chain and of a call. -/
theorem Derives.shallow (h : Derives options level ts e n) : e.Shallow level n := by
  induction h with
  | plain _ ih =>
    have := ih.height_le
    refine .of_height_le rfl (by decide) ?_
    simp only [Level.slack] at this ⊢
    omega
  | conditional _ _ _ _ _ _ ihc iht ihe =>
    have hc := ihc.height_le
    have ht := iht.height_le
    have he := ihe.height_le
    refine .of_height_le rfl (by decide) ?_
    simp only [Level.slack] at hc ht he ⊢
    refine Expr.height_le_of_inner (by omega) ?_
    simp only [Expr.inner, Expr.parts, List.forall_mem_cons]
    exact ⟨by omega, by omega, by omega, List.forall_mem_nil _⟩
  | lift hnext _ ih => exact ih.lift hnext
  | @binary level next _ _ _ operator l r m n hnext hsign _ _ _ ihl ihr =>
    have hoperators : level.operators ≠ [] := List.ne_nil_of_mem hsign
    have hoperands : ∀ x ∈ (Expr.binary operator l r).spineOperands,
        x.height < 9 * max m n + level.slack := by
      rw [Expr.spineOperands, List.forall_mem_append, List.forall_mem_singleton]
      constructor
      · intro x hx
        have hspine := ihl.spine_lt (Level.operators_leftOperand hoperators) x hx
        have hslack := level.slack_leftOperand
        omega
      · have hright := ihr.height_le
        have hslack := (Level.slack_tighter hnext).2 (.inl hoperators)
        omega
    refine ⟨Expr.height_le_of_inner ?_ hoperands, fun _ => hoperands, ?_⟩
    · exact Nat.lt_of_le_of_lt (Nat.zero_le _) (hoperands r (by simp [Expr.spineOperands]))
    · rintro rfl
      exact absurd rfl hoperators
  | @unary ts sign operator e n _ _ ih =>
    have hoperand := ih.height_le
    refine .of_height_le rfl (by decide) ?_
    refine Expr.height_le_of_inner (by omega) (List.forall_mem_singleton.2 ?_)
    omega
  | @member ts dot token name e n _ _ _ ih =>
    have hchain := ih.chain_lt rfl
    have hinner : ∀ x ∈ (Expr.member e name).inner, x.height < 9 * n + Level.access.slack :=
      hchain
    refine ⟨Expr.height_le_of_inner (by simp only [Level.slack]; omega) hinner,
      fun hoperators => absurd rfl hoperators, fun _ => hchain⟩
  | @index ts us left right e k m n _ _ _ _ ihe ihk =>
    have hkey := ihk.height_le
    have hchain : ∀ x ∈ (Expr.index e k).chainOperands,
        x.height < 9 * max m n + Level.access.slack := by
      rw [Expr.chainOperands, List.forall_mem_append, List.forall_mem_singleton]
      simp only [Level.slack] at hkey ⊢
      refine ⟨fun x hx => ?_, by omega⟩
      have := ihe.chain_lt rfl x hx
      simp only [Level.slack] at this
      omega
    refine ⟨Expr.height_le_of_inner (by simp only [Level.slack]; omega) hchain,
      fun hoperators => absurd rfl hoperators, fun _ => hchain⟩
  | literal | identifier =>
    exact .of_height_le rfl (by decide)
      (Expr.height_le_of_inner (by decide) (List.forall_mem_nil _))
  | @call name left right qualifier function body arguments _ _ _ _ _ ih =>
    refine .of_height_le rfl (by decide)
      (Expr.height_le_of_inner (by simp only [Level.slack]; omega) ?_)
    intro x hx
    obtain ⟨p, hp, rfl⟩ := List.mem_map.1 hx
    have hargument := (ih p hp).height_le
    have hnesting := deepest_le_iff.1 (Nat.le_refl (deepest (arguments.map Phrase.nesting)))
      p.nesting (List.mem_map_of_mem hp)
    simp only [Level.slack] at hargument ⊢
    omega
  | group _ _ _ ih =>
    have := ih.height_le
    refine .of_height_le rfl (by decide) ?_
    simp only [Level.slack] at this ⊢
    omega

end

/-! ## The height of a tree that was read -/

/-- **The allowed depth bounds the stack of an evaluation.**  The height of a tree that a source is
read as is at most nine times the allowed depth, however long its spines, its chains and its lists
of arguments are; so that much of a stack is enough to evaluate it against any host. -/
theorem height_le_of_parse {options : ParserOptions} {source : Text} {e : Expr}
    (h : parse options source = .ok e) :
    e.height ≤ 9 * options.maxDepth ∧ ∀ host beyond,
      evaluateWithin host beyond (9 * options.maxDepth) e = evaluate host e := by
  obtain ⟨pieces, last, n, -, hn, hd⟩ := parse_eq_ok_iff.1 h
  have hheight : e.height ≤ 9 * options.maxDepth := by
    have := hd.shallow.height_le
    simp only [Level.slack] at this
    omega
  exact ⟨hheight, fun host beyond => evaluateWithin_eq_evaluate hheight⟩

/-- Four nestings: the whole, the operand of the sign, the key, and the branches in it. -/
theorem height_le_of_parse_key :
    let e := Expr.binary .or (.identifier ['a'])
      (.unary .negate (.index (.member (.identifier ['b']) ['c'])
        (.conditional (.identifier ['d']) (.identifier ['e']) (.identifier ['f']))))
    parse { maxDepth := 4 } "a||-b.c[d?e:f]".toList = .ok e ∧ e.height ≤ 36 ∧
      ∀ host beyond, evaluateWithin host beyond 36 e = evaluate host e := by
  intro e
  have hsplit : Split "a||-b.c[d?e:f]".toList [
      ⟨[], .identifier ['a'], ['a']⟩, ⟨[], .sign .or ['|', '|'], ['|', '|']⟩,
      ⟨[], .sign .minus ['-'], ['-']⟩, ⟨[], .identifier ['b'], ['b']⟩,
      ⟨[], .sign .dot ['.'], ['.']⟩, ⟨[], .identifier ['c'], ['c']⟩,
      ⟨[], .sign .leftBracket ['['], ['[']⟩, ⟨[], .identifier ['d'], ['d']⟩,
      ⟨[], .sign .question ['?'], ['?']⟩, ⟨[], .identifier ['e'], ['e']⟩,
      ⟨[], .sign .colon [':'], [':']⟩, ⟨[], .identifier ['f'], ['f']⟩,
      ⟨[], .sign .rightBracket [']'], [']']⟩] [] := by
    refine ⟨rfl, ⟨blank_nil, ?_, blank_nil, ?_, blank_nil, ?_, blank_nil, ?_, blank_nil, ?_,
      blank_nil, ?_, blank_nil, ?_, blank_nil, ?_, blank_nil, ?_, blank_nil, ?_, blank_nil, ?_,
      blank_nil, ?_, blank_nil, ?_, trivial⟩, blank_nil⟩
    all_goals exact Lexeme.stands_of_read_append rfl rfl
  have hparse : parse { maxDepth := 4 } "a||-b.c[d?e:f]".toList = .ok e := by
    rw [parse, hsplit.ofSource_eq]
    rfl
  exact ⟨hparse, height_le_of_parse hparse⟩

end ExprLang
