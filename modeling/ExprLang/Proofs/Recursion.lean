import ExprLang.Eval.Basic

/-!
# Evaluation by plain recursion

The evaluator folds the spine of an operator chain and walks a chain of accesses in a loop.  Here
the meaning of an expression is written down by recursion on the tree alone, one rule per node, and
the two are shown to be the same computation: on every tree and for every host they end in the same
value or the same failure, after the same exchanges with the host in the same order.

* `evaluateByRecursion` — the value of a tree by recursion on it.
* `bind_foldlM_spineOnto`, `bind_walk_chainOnto` — what the loops compute, for any collected links.
* `evaluate_eq_evaluateByRecursion` — the loops agree with the recursion.
-/

namespace ExprLang

open Evaluation

/-- What stands under a key in the value of an object.  Null holds nothing but null, and its key is
not evaluated; under a null key there is null. -/
def lookUp (object : Value) (key : Evaluation Value) : Evaluation Value := do
  if object.isNull then
    return .null
  else
    let key ← key
    if key.isNull then
      return .null
    else
      ofResult (object.access key)

mutual

/-- The value of an expression, by recursion on it. -/
def evaluateByRecursion (host : Host) : Expr → Evaluation Value
  | .literal value => return value
  | .identifier name => host.askVariable name
  | .unary operator operand => do
    ofResult (operator.apply (← evaluateByRecursion host operand))
  | .binary operator left right => do
    applyBinary operator (← evaluateByRecursion host left) (evaluateByRecursion host right)
  | .conditional condition thenBranch elseBranch => do
    if ← ofCoercion (← evaluateByRecursion host condition).toBoolean then
      evaluateByRecursion host thenBranch
    else
      evaluateByRecursion host elseBranch
  | .member object name => do
    lookUp (← evaluateByRecursion host object) (return .string name)
  | .index object key => do
    lookUp (← evaluateByRecursion host object) (evaluateByRecursion host key)
  | .call qualifier name arguments => do
    let function ← host.askFunction qualifier name
    let values ← evaluateAllByRecursion host arguments
    Host.call qualifier name function values
  | .foreign name => throw (.unknownNode name)

/-- The values of arguments, from left to right. -/
def evaluateAllByRecursion (host : Host) : List Expr → Evaluation (List Value)
  | [] => return []
  | argument :: arguments => do
    let value ← evaluateByRecursion host argument
    return value :: (← evaluateAllByRecursion host arguments)

end

/-! ## Spines of operators -/

/-- A link of a spine on the value to its left. -/
def applyLink (host : Host) (value : Value) (link : BinaryOperator × Expr) : Evaluation Value :=
  applyBinary link.1 value (evaluateByRecursion host link.2)

/-- Folding the collected spine is applying the links to the value of the whole tree. -/
theorem bind_foldlM_spineOnto (host : Host) (e : Expr) (links : List (BinaryOperator × Expr)) :
    (do
      let first ← evaluateByRecursion host (e.spineOnto links).1
      (e.spineOnto links).2.foldlM (applyLink host) first) =
    (do
      let value ← evaluateByRecursion host e
      links.foldlM (applyLink host) value) := by
  fun_induction Expr.spineOnto e links with
  | case1 operator left right links ih =>
    rw [ih, evaluateByRecursion]
    simp only [List.foldlM_cons, bind_assoc, applyLink]
  | case2 => rfl

/-! ## Chains of accesses -/

/-- What a link of a chain looks up. -/
def linkKey (host : Host) : Accessor → Evaluation Value
  | .name name => return .string name
  | .key key => evaluateByRecursion host key

section

variable {α β : Type} {key : α → Evaluation Value}

theorem walk_null (links : List α) : walk key links .null = pure .null := by
  cases links with
  | nil => rfl
  | cons link links => rfl

/-- A step of the walk is a look-up, though the walk is over when that gives null. -/
theorem walk_cons (link : α) (links : List α) (object : Value) :
    walk key (link :: links) object = (do walk key links (← lookUp object (key link))) := by
  rw [walk, lookUp]
  by_cases hobject : object.isNull = true
  · simp only [hobject, if_true, pure_bind, walk_null]
  · rw [if_neg hobject, if_neg hobject, bind_assoc]
    refine bind_congr fun value => ?_
    by_cases hvalue : value.isNull = true
    · simp only [hvalue, if_true, pure_bind, walk_null]
    · rw [if_neg hvalue, if_neg hvalue]

theorem walk_single (link : α) (object : Value) :
    walk key [link] object = lookUp object (key link) := by
  rw [walk_cons]
  simp only [walk, bind_pure]

theorem walk_map (f : β → α) (links : List β) (object : Value) :
    walk key (links.map f) object = walk (fun link => key (f link)) links object := by
  induction links generalizing object with
  | nil => rfl
  | cons link links ih => simp only [List.map_cons, walk_cons, ih]

end

/-- Walking the collected chain is walking the links from the value of the whole tree. -/
theorem bind_walk_chainOnto (host : Host) (e : Expr) (links : List Accessor) :
    (do
      let base ← evaluateByRecursion host (e.chainOnto links).1
      walk (linkKey host) (e.chainOnto links).2 base) =
    (do
      let value ← evaluateByRecursion host e
      walk (linkKey host) links value) := by
  fun_induction Expr.chainOnto e links with
  | case1 object name links ih =>
    rw [ih, evaluateByRecursion]
    simp only [walk_cons, bind_assoc, linkKey]
  | case2 object key links ih =>
    rw [ih, evaluateByRecursion]
    simp only [walk_cons, bind_assoc, linkKey]
  | case3 => rfl

/-! ## The evaluator -/

section

variable {host : Host}

theorem foldlM_attach {links : List (BinaryOperator × Expr)}
    (h : ∀ link ∈ links, evaluate host link.2 = evaluateByRecursion host link.2) (first : Value) :
    links.attach.foldlM (fun value link =>
      applyBinary link.1.1 value (evaluate host link.1.2)) first =
      links.foldlM (applyLink host) first := by
  have hstep : (fun (value : Value) (link : { link // link ∈ links }) =>
      applyBinary link.1.1 value (evaluate host link.1.2)) =
      fun value link => applyLink host value link.1 := by
    funext value link
    rw [applyLink, h link.1 link.2]
  rw [hstep, ← List.foldlM_map, List.attach_map_subtype_val]

/-- What the evaluator does with a spine, once it is known to agree on the parts. -/
theorem evaluate_spine {left right : Expr} {operator : BinaryOperator}
    (hbase : evaluate host (left.spineOnto [(operator, right)]).1 =
      evaluateByRecursion host (left.spineOnto [(operator, right)]).1)
    (hlinks : ∀ link ∈ (left.spineOnto [(operator, right)]).2,
      evaluate host link.2 = evaluateByRecursion host link.2) :
    evaluate host (.binary operator left right) =
      evaluateByRecursion host (.binary operator left right) := by
  rw [evaluate, hbase]
  simp only [foldlM_attach hlinks]
  rw [bind_foldlM_spineOnto, evaluateByRecursion]
  simp only [List.foldlM_cons, List.foldlM_nil, bind_pure, applyLink]

/-- What the evaluator does with a chain, once it is known to agree on the base and the keys. -/
theorem evaluate_chain {object : Expr} {link : Accessor}
    {key : { l // l ∈ (object.chainOnto [link]).2 } → Evaluation Value}
    (hbase : evaluate host (object.chainOnto [link]).1 =
      evaluateByRecursion host (object.chainOnto [link]).1)
    (hkey : ∀ l, key l = linkKey host l.1) :
    (do
      let base ← evaluate host (object.chainOnto [link]).1
      walk key (object.chainOnto [link]).2.attach base) =
    (do lookUp (← evaluateByRecursion host object) (linkKey host link)) := by
  have hwalk : ∀ base, walk key (object.chainOnto [link]).2.attach base =
      walk (linkKey host) (object.chainOnto [link]).2 base := by
    intro base
    rw [funext hkey, ← walk_map Subtype.val, List.attach_map_subtype_val]
  rw [hbase]
  simp only [hwalk]
  rw [bind_walk_chainOnto]
  simp only [walk_single]

theorem evaluate_arguments {arguments : List Expr}
    (h : ∀ e ∈ arguments, evaluate host e = evaluateByRecursion host e) :
    arguments.attach.mapM (fun argument => evaluate host argument.1) =
      evaluateAllByRecursion host arguments := by
  have hstep : (fun argument : { e // e ∈ arguments } => evaluate host argument.1) =
      evaluateByRecursion host ∘ Subtype.val := by
    funext argument
    exact h argument.1 argument.2
  rw [hstep, ← List.mapM_map, List.attach_map_subtype_val]
  clear h hstep
  induction arguments with
  | nil => rfl
  | cons argument arguments ih => rw [List.mapM_cons, ih, evaluateAllByRecursion]

end

/-- **The loops agree with plain recursion.**  Evaluating a tree is the same computation as the
recursion on it: from every state of the exchange with the host it comes to the same value or the
same failure, and it leaves the same trace of look-ups and calls. -/
theorem evaluate_eq_evaluateByRecursion (host : Host) (e : Expr) :
    evaluate host e = evaluateByRecursion host e := by
  -- the parts that the loops collect are no subtrees one level down, but they are smaller
  induction hsize : sizeOf e using Nat.strongRecOn generalizing e with
  | ind size ih =>
    subst hsize
    have smaller : ∀ e', sizeOf e' < sizeOf e → evaluate host e' = evaluateByRecursion host e' :=
      fun e' hlt => ih _ hlt e' rfl
    cases e with
    | literal | identifier | foreign => rw [evaluate, evaluateByRecursion]
    | unary operator operand =>
      rw [evaluate, evaluateByRecursion,
        smaller operand (by rw [Expr.unary.sizeOf_spec]; omega)]
    | binary operator left right =>
      have hleft := Expr.sizeOf_left_lt operator left right
      have hbase := Expr.sizeOf_spineOnto_base left [(operator, right)]
      refine evaluate_spine (smaller _ (Nat.lt_of_le_of_lt hbase hleft)) fun link hlink => ?_
      refine smaller link.2 ?_
      rcases Expr.sizeOf_spineOnto_link hlink with h | h
      · rw [List.mem_singleton.1 h]
        exact Expr.sizeOf_right_lt operator left right
      · exact Nat.lt_trans h hleft
    | conditional condition thenBranch elseBranch =>
      have hsize := Expr.conditional.sizeOf_spec condition thenBranch elseBranch
      rw [evaluate, evaluateByRecursion, smaller condition (by omega),
        smaller thenBranch (by omega), smaller elseBranch (by omega)]
    | member object name =>
      have hobject := Expr.sizeOf_object_lt_member object name
      have hbase := Expr.sizeOf_chainOnto_base object [.name name]
      rw [evaluate, evaluateByRecursion]
      refine evaluate_chain (smaller _ (Nat.lt_of_le_of_lt hbase hobject)) ?_
      rintro ⟨name | key, hmem⟩
      · rfl
      · refine smaller key ?_
        rcases Expr.sizeOf_chainOnto_key hmem with h | h
        · cases List.mem_singleton.1 h
        · exact Nat.lt_trans h hobject
    | index object key =>
      have hobject := Expr.sizeOf_object_lt_index object key
      have hbase := Expr.sizeOf_chainOnto_base object [.key key]
      rw [evaluate, evaluateByRecursion]
      refine evaluate_chain (smaller _ (Nat.lt_of_le_of_lt hbase hobject)) ?_
      rintro ⟨name | key, hmem⟩
      · rfl
      · refine smaller key ?_
        rcases Expr.sizeOf_chainOnto_key hmem with h | h
        · cases List.mem_singleton.1 h
          exact Expr.sizeOf_key_lt object key
        · exact Nat.lt_trans h hobject
    | call qualifier name arguments =>
      have harguments : ∀ e ∈ arguments, evaluate host e = evaluateByRecursion host e := by
        intro e he
        have := List.sizeOf_lt_of_mem he
        refine smaller e ?_
        rw [Expr.call.sizeOf_spec]
        omega
      rw [evaluate, evaluateByRecursion]
      simp only [evaluate_arguments harguments]

end ExprLang
