import ExprLang.Proofs.Recursion

/-!
# Evaluation, node by node

What a node of a tree does in a run: the computation of every node from those of its parts, without
the loops that collect spines and chains, and what it means for a computation to return or to fail.

* `Evaluation.Returns`, `Evaluation.Fails` — the two ends of a run, with their laws for `do`.
* `Expr.parts`, `Expr.induction_parts` — the trees one level down, and induction on them.
* `evaluate_binary`, `evaluate_member`, `evaluate_index`, `evaluate_call` — the rules of the nodes.
-/

namespace ExprLang

open Evaluation

/-! ## Runs -/

namespace Evaluation

/-- From the one trace, the computation comes to a value with the other trace. -/
def Returns {α : Type} (x : Evaluation α) (trace : Trace) (value : α) (after : Trace) : Prop :=
  x.run trace = (.ok value, after)

/-- From the one trace, the computation comes to a failure with the other trace. -/
def Fails {α : Type} (x : Evaluation α) (trace : Trace) (failure : Failure) (after : Trace) :
    Prop :=
  x.run trace = (.error failure, after)

section

variable {α β : Type} {x : Evaluation α} {f : α → Evaluation β} {trace after : Trace}
  {failure failure' : Failure} {a b : α}

theorem run_bind : (x >>= f).run trace =
    match x.run trace with
    | (.ok a, after) => (f a).run after
    | (.error failure, after) => (.error failure, after) := by
  show (match x.run trace with
    | (result, after) => ExceptT.bindCont f result after) = _
  rcases x.run trace with ⟨result, after⟩
  cases result <;> rfl

theorem returns_or_fails (x : Evaluation α) (trace : Trace) :
    (∃ value after, x.Returns trace value after) ∨
      ∃ failure after, x.Fails trace failure after := by
  rcases hrun : x.run trace with ⟨failure | value, after⟩
  · exact .inr ⟨failure, after, hrun⟩
  · exact .inl ⟨value, after, hrun⟩

theorem returns_pure : (pure a : Evaluation α).Returns trace b after ↔ a = b ∧ trace = after := by
  show (Except.ok a, trace) = (Except.ok b, after) ↔ _
  simp

theorem not_fails_pure : ¬ (pure a : Evaluation α).Fails trace failure after :=
  nofun

theorem not_returns_throw : ¬ (throw failure : Evaluation α).Returns trace b after :=
  nofun

theorem fails_throw :
    (throw failure : Evaluation α).Fails trace failure' after ↔
      failure = failure' ∧ trace = after := by
  show (Except.error failure, trace) = (Except.error failure', after) ↔ _
  simp

theorem returns_bind {b : β} : (x >>= f).Returns trace b after ↔
    ∃ a between, x.Returns trace a between ∧ (f a).Returns between b after := by
  unfold Returns
  rw [run_bind]
  constructor
  · intro h
    split at h
    · rename_i a between heq
      exact ⟨a, between, heq, h⟩
    · cases h
  · rintro ⟨a, between, hx, hf⟩
    rw [hx]
    exact hf

theorem fails_bind : (x >>= f).Fails trace failure after ↔
    x.Fails trace failure after ∨
      ∃ a between, x.Returns trace a between ∧ (f a).Fails between failure after := by
  unfold Returns Fails
  rw [run_bind]
  constructor
  · intro h
    split at h
    · rename_i a between heq
      exact .inr ⟨a, between, heq, h⟩
    · rename_i failure between heq
      cases h
      exact .inl heq
  · rintro (hx | ⟨a, between, hx, hf⟩)
    · rw [hx]
    · rw [hx]
      exact hf

theorem returns_ofResult {result : Except Failure α} :
    (ofResult result).Returns trace b after ↔ result = .ok b ∧ trace = after := by
  cases result with
  | ok a => simp only [ofResult, returns_pure, Except.ok.injEq]
  | error failure => simp only [ofResult, not_returns_throw, reduceCtorEq, false_and]

theorem fails_ofResult {result : Except Failure α} :
    (ofResult result).Fails trace failure after ↔ result = .error failure ∧ trace = after := by
  cases result with
  | ok a => simp only [ofResult, not_fails_pure, reduceCtorEq, false_and]
  | error failure => simp only [ofResult, fails_throw, Except.error.injEq]

theorem failure_ofCoercion_ok (a : α) : Failure.ofCoercion (.ok a) = .ok a :=
  rfl

theorem failure_ofCoercion_error (error : CoercionError) :
    (Failure.ofCoercion (.error error) : Except Failure α) = .error (.coercion error) :=
  rfl

theorem returns_ofCoercion {result : Except CoercionError α} :
    (ofCoercion result).Returns trace b after ↔ result = .ok b ∧ trace = after := by
  rw [ofCoercion, returns_ofResult]
  cases result <;> simp [failure_ofCoercion_ok, failure_ofCoercion_error]

theorem fails_ofCoercion {result : Except CoercionError α} :
    (ofCoercion result).Fails trace failure after ↔
      (∃ error, result = .error error ∧ failure = .coercion error) ∧ trace = after := by
  rw [ofCoercion, fails_ofResult]
  cases result <;> simp [failure_ofCoercion_ok, failure_ofCoercion_error, eq_comm]

end

end Evaluation

/-! ## Induction on trees -/

namespace Expr

/-- The trees one level down. -/
def parts : Expr → List Expr
  | .literal _ | .identifier _ | .foreign _ => []
  | .unary _ operand => [operand]
  | .binary _ left right => [left, right]
  | .conditional condition thenBranch elseBranch => [condition, thenBranch, elseBranch]
  | .member object _ => [object]
  | .index object key => [object, key]
  | .call _ _ arguments => arguments

theorem sizeOf_part_lt {e part : Expr} (h : part ∈ e.parts) : sizeOf part < sizeOf e := by
  cases e with
  | literal | identifier | foreign => cases h
  | call _ _ arguments =>
    have := List.sizeOf_lt_of_mem (show part ∈ arguments from h)
    rw [call.sizeOf_spec]
    omega
  | unary | binary | conditional | member | index =>
    simp only [parts, List.mem_cons, List.not_mem_nil, or_false] at h
    rcases h with rfl | rfl | rfl <;>
      simp only [unary.sizeOf_spec, binary.sizeOf_spec, conditional.sizeOf_spec,
        member.sizeOf_spec, index.sizeOf_spec] <;> omega

/-- Induction on a tree, where the arguments of a call count as its parts. -/
theorem induction_parts {P : Expr → Prop} (node : ∀ e, (∀ part ∈ e.parts, P part) → P e)
    (e : Expr) : P e := by
  induction hsize : sizeOf e using Nat.strongRecOn generalizing e with
  | ind size ih =>
    subst hsize
    exact node e fun part hpart => ih _ (sizeOf_part_lt hpart) part rfl

end Expr

/-! ## The rules of the nodes -/

section

variable {host : Host}

theorem evaluate_literal (value : Value) : evaluate host (.literal value) = pure value := by
  rw [evaluate]

theorem evaluate_identifier (name : Text) :
    evaluate host (.identifier name) = host.askVariable name := by
  rw [evaluate]

theorem evaluate_foreign (typeName : Text) :
    evaluate host (.foreign typeName) = throw (.unknownNode typeName) := by
  rw [evaluate]

theorem evaluate_unary (operator : UnaryOperator) (operand : Expr) :
    evaluate host (.unary operator operand) =
      (do ofResult (operator.apply (← evaluate host operand))) := by
  rw [evaluate]

theorem evaluate_conditional (condition thenBranch elseBranch : Expr) :
    evaluate host (.conditional condition thenBranch elseBranch) =
      (do
        if ← ofCoercion (← evaluate host condition).toBoolean then
          evaluate host thenBranch
        else
          evaluate host elseBranch) := by
  rw [evaluate]

/-! ### Spines -/

theorem spineOnto_eq (e : Expr) (links : List (BinaryOperator × Expr)) :
    e.spineOnto links = ((e.spineOnto []).1, (e.spineOnto []).2 ++ links) := by
  induction e using Expr.induction_parts generalizing links with
  | node e ih =>
    cases e with
    | binary operator left right =>
      have hleft := ih left List.mem_cons_self
      rw [Expr.spineOnto, hleft, Expr.spineOnto, hleft [_]]
      simp
    | _ => rfl

/-- A link of a spine on the value to its left. -/
def spineStep (host : Host) (value : Value) (link : BinaryOperator × Expr) : Evaluation Value :=
  applyBinary link.1 value (evaluate host link.2)

/-- What the evaluator does with a spine that it has collected. -/
def foldSpine (host : Host) (spine : Expr × List (BinaryOperator × Expr)) : Evaluation Value := do
  let first ← evaluate host spine.1
  spine.2.foldlM (spineStep host) first

theorem evaluate_binary_eq_foldSpine (operator : BinaryOperator) (left right : Expr) :
    evaluate host (.binary operator left right) =
      foldSpine host (left.spineOnto [(operator, right)]) := by
  have hlinks : ∀ (links : List (BinaryOperator × Expr)) (first : Value),
      links.attach.foldlM (fun value link => spineStep host value link.1) first =
        links.foldlM (spineStep host) first := by
    intro links first
    rw [← List.foldlM_map, List.attach_map_subtype_val]
  rw [evaluate, foldSpine]
  exact bind_congr fun first => hlinks _ first

/-- The value of a tree is that of its spine. -/
theorem evaluate_eq_foldSpine (e : Expr) : evaluate host e = foldSpine host (e.spineOnto []) := by
  cases e with
  | binary operator left right => exact evaluate_binary_eq_foldSpine operator left right
  | _ => simp only [foldSpine, Expr.spineOnto, List.foldlM_nil, bind_pure]

theorem evaluate_binary (operator : BinaryOperator) (left right : Expr) :
    evaluate host (.binary operator left right) =
      (do applyBinary operator (← evaluate host left) (evaluate host right)) := by
  rw [evaluate_binary_eq_foldSpine, spineOnto_eq, evaluate_eq_foldSpine left]
  simp only [foldSpine, spineStep, List.foldlM_append, List.foldlM_cons, List.foldlM_nil, bind_pure,
    bind_assoc]

/-! ### Chains -/

theorem chainOnto_eq (e : Expr) (links : List Accessor) :
    e.chainOnto links = ((e.chainOnto []).1, (e.chainOnto []).2 ++ links) := by
  induction e using Expr.induction_parts generalizing links with
  | node e ih =>
    cases e with
    | member object | index object =>
      have hobject := ih object List.mem_cons_self
      rw [Expr.chainOnto, hobject, Expr.chainOnto, hobject [_]]
      simp
    | _ => rfl

theorem walk_append {α : Type} {key : α → Evaluation Value} (links links' : List α)
    (object : Value) :
    walk key (links ++ links') object = (do walk key links' (← walk key links object)) := by
  induction links generalizing object with
  | nil => simp only [List.nil_append, walk, pure_bind]
  | cons link links ih => simp only [List.cons_append, walk_cons, ih, bind_assoc]

/-- What a link of a chain looks up. -/
def accessorKey (host : Host) : Accessor → Evaluation Value
  | .name name => pure (.string name)
  | .key key => evaluate host key

/-- What the evaluator does with a chain that it has collected. -/
def walkChain (host : Host) (chain : Expr × List Accessor) : Evaluation Value := do
  let base ← evaluate host chain.1
  walk (accessorKey host) chain.2 base

theorem walk_attach {links : List Accessor} {key : { link // link ∈ links } → Evaluation Value}
    (h : ∀ link, key link = accessorKey host link.1) (object : Value) :
    walk key links.attach object = walk (accessorKey host) links object := by
  rw [funext h, ← walk_map Subtype.val, List.attach_map_subtype_val]

theorem evaluate_member_eq_walkChain (object : Expr) (name : Text) :
    evaluate host (.member object name) = walkChain host (object.chainOnto [.name name]) := by
  rw [evaluate, walkChain]
  refine bind_congr fun base => walk_attach ?_ base
  rintro ⟨name | key, -⟩ <;> rfl

theorem evaluate_index_eq_walkChain (object key : Expr) :
    evaluate host (.index object key) = walkChain host (object.chainOnto [.key key]) := by
  rw [evaluate, walkChain]
  refine bind_congr fun base => walk_attach ?_ base
  rintro ⟨name | key, -⟩ <;> rfl

theorem evaluate_eq_walkChain (e : Expr) : evaluate host e = walkChain host (e.chainOnto []) := by
  cases e with
  | member object name => exact evaluate_member_eq_walkChain object name
  | index object key => exact evaluate_index_eq_walkChain object key
  | _ => simp only [walkChain, Expr.chainOnto, walk, bind_pure]

/-- A chain with one more link at its outer end. -/
theorem walkChain_chainOnto (object : Expr) (link : Accessor) :
    walkChain host (object.chainOnto [link]) =
      (do lookUp (← evaluate host object) (accessorKey host link)) := by
  rw [chainOnto_eq, evaluate_eq_walkChain object]
  simp only [walkChain, walk_append, walk_single, bind_assoc]

theorem evaluate_member (object : Expr) (name : Text) :
    evaluate host (.member object name) =
      (do lookUp (← evaluate host object) (pure (.string name))) := by
  rw [evaluate_member_eq_walkChain, walkChain_chainOnto, accessorKey]

theorem evaluate_index (object key : Expr) :
    evaluate host (.index object key) =
      (do lookUp (← evaluate host object) (evaluate host key)) := by
  rw [evaluate_index_eq_walkChain, walkChain_chainOnto, accessorKey]

theorem evaluate_call (qualifier : Option Text) (name : Text) (arguments : List Expr) :
    evaluate host (.call qualifier name arguments) = (do
      let function ← host.askFunction qualifier name
      Host.call qualifier name function (← arguments.mapM (evaluate host))) := by
  rw [evaluate]
  refine bind_congr fun function => ?_
  have hparts : arguments.attach.mapM (fun argument => evaluate host argument.1) =
      (arguments.attach.map Subtype.val).mapM (evaluate host) := List.mapM_map.symm
  rw [hparts, List.attach_map_subtype_val]

end

end ExprLang
