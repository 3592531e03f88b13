import ExprLang.Proofs.FirstFailure

/-!
# Parts that are not needed

An evaluation does not come to every part of its tree.  What it does not come to cannot be told from
outside: any other tree may stand there, and the host is asked for the same in the same order, and
the same comes out.

A place in a tree is written as the numbers of the parts that lead to it from the root.

* `Expr.replace` — other trees in some places of a tree.
* `Reaches`, `Comes` — the places that an evaluation comes to, with the trace at that time.
* `run_mapParts` — a node whose parts are the same where it comes to them.
* `run_replace` — the same for whole trees.
* `Skips`, `Skipped` — the parts that are left out, by the kind of node.
* `run_replace_skipped` — what is left out does not matter.
-/

namespace ExprLang

open Evaluation

/-! ## Other trees in some places -/

/-- New trees for some places. -/
abbrev Edits := List Nat → Option Expr

/-- What is new inside the part of that number. -/
def Edits.inside (edits : Edits) (i : Nat) : Edits :=
  fun place => edits (i :: place)

namespace Expr

/-- The node with other parts in the places of its own. -/
def mapParts (g : Nat → Expr → Expr) : Expr → Expr
  | .unary operator operand => .unary operator (g 0 operand)
  | .binary operator left right => .binary operator (g 0 left) (g 1 right)
  | .conditional condition thenBranch elseBranch =>
    .conditional (g 0 condition) (g 1 thenBranch) (g 2 elseBranch)
  | .member object name => .member (g 0 object) name
  | .index object key => .index (g 0 object) (g 1 key)
  | .call qualifier name arguments => .call qualifier name (arguments.mapIdx g)
  | .literal value => .literal value
  | .identifier name => .identifier name
  | .foreign typeName => .foreign typeName

mutual

/-- The tree with the new trees in their places.  Of two places one inside the other, the outer one
counts. -/
def replace (edits : Edits) (e : Expr) : Expr :=
  (edits []).getD <|
    match e with
    | .unary operator operand => .unary operator (operand.replace (edits.inside 0))
    | .binary operator left right =>
      .binary operator (left.replace (edits.inside 0)) (right.replace (edits.inside 1))
    | .conditional condition thenBranch elseBranch =>
      .conditional (condition.replace (edits.inside 0)) (thenBranch.replace (edits.inside 1))
        (elseBranch.replace (edits.inside 2))
    | .member object name => .member (object.replace (edits.inside 0)) name
    | .index object key => .index (object.replace (edits.inside 0)) (key.replace (edits.inside 1))
    | .call qualifier name arguments => .call qualifier name (replaceAll edits 0 arguments)
    | .literal value => .literal value
    | .identifier name => .identifier name
    | .foreign typeName => .foreign typeName

/-- The arguments from a number on. -/
def replaceAll (edits : Edits) (i : Nat) : List Expr → List Expr
  | [] => []
  | argument :: arguments => argument.replace (edits.inside i) :: replaceAll edits (i + 1) arguments

end

theorem replaceAll_eq_mapIdx (edits : Edits) (i : Nat) (arguments : List Expr) :
    replaceAll edits i arguments =
      arguments.mapIdx fun j argument => argument.replace (edits.inside (i + j)) := by
  induction arguments generalizing i with
  | nil => rfl
  | cons argument arguments ih =>
    rw [replaceAll, ih, List.mapIdx_cons]
    simp only [Nat.add_assoc, Nat.add_comm 1, Nat.add_zero]

theorem replace_eq (edits : Edits) (e : Expr) :
    e.replace edits =
      (edits []).getD (e.mapParts fun i part => part.replace (edits.inside i)) := by
  cases e with
  | call =>
    rw [replace, replaceAll_eq_mapIdx]
    simp only [Nat.zero_add, mapParts]
  | _ => rw [replace, mapParts]

end Expr

/-! ## The places that an evaluation comes to -/

/-- The evaluation of the node comes to its part of that number, with the other trace. -/
inductive Reaches (host : Host) : Expr → Trace → Nat → Trace → Prop where
  | operand {operator : UnaryOperator} {operand : Expr} {t : Trace} :
    Reaches host (.unary operator operand) t 0 t
  | left {operator : BinaryOperator} {left right : Expr} {t : Trace} :
    Reaches host (.binary operator left right) t 0 t
  | right {operator : BinaryOperator} {left right : Expr} {value : Value} {t t' : Trace} :
    (evaluate host left).Returns t value t' → operator.needsRight value = .ok true →
    Reaches host (.binary operator left right) t 1 t'
  | condition {condition thenBranch elseBranch : Expr} {t : Trace} :
    Reaches host (.conditional condition thenBranch elseBranch) t 0 t
  | thenBranch {condition thenBranch elseBranch : Expr} {value : Value} {t t' : Trace} :
    (evaluate host condition).Returns t value t' → value.toBoolean = .ok true →
    Reaches host (.conditional condition thenBranch elseBranch) t 1 t'
  | elseBranch {condition thenBranch elseBranch : Expr} {value : Value} {t t' : Trace} :
    (evaluate host condition).Returns t value t' → value.toBoolean = .ok false →
    Reaches host (.conditional condition thenBranch elseBranch) t 2 t'
  | memberObject {object : Expr} {name : Text} {t : Trace} :
    Reaches host (.member object name) t 0 t
  | indexObject {object key : Expr} {t : Trace} : Reaches host (.index object key) t 0 t
  | key {object key : Expr} {value : Value} {t t' : Trace} :
    (evaluate host object).Returns t value t' → value.isNull = false →
    Reaches host (.index object key) t 1 t'
  | argument {qualifier : Option Text} {name : Text} {arguments : List Expr} {i : Nat}
      {function : HostFunction} {values : List Value} {t t₁ t₂ : Trace} :
    (host.askFunction qualifier name).Returns t function t₁ →
    ((arguments.take i).mapM (evaluate host)).Returns t₁ values t₂ →
    Reaches host (.call qualifier name arguments) t i t₂

/-- The evaluation of the tree comes to the place, with the other trace. -/
inductive Comes (host : Host) : Expr → Trace → List Nat → Trace → Prop where
  | here {e : Expr} {t : Trace} : Comes host e t [] t
  | inside {e part : Expr} {i : Nat} {place : List Nat} {t t₁ t₂ : Trace} :
    Reaches host e t i t₁ → e.parts[i]? = some part → Comes host part t₁ place t₂ →
    Comes host e t (i :: place) t₂

namespace Evaluation

section

variable {α β : Type} {x x' : Evaluation α} {f f' : α → Evaluation β} {a b : α}
  {t t₁ t₂ : Trace} {failure : Failure}

theorem Returns.unique (h : x.Returns t a t₁) (h' : x.Returns t b t₂) : a = b ∧ t₁ = t₂ := by
  cases h.symm.trans h'
  exact ⟨rfl, rfl⟩

theorem Returns.not_fails (h : x.Returns t a t₁) : ¬ x.Fails t failure t₂ := by
  intro h'
  cases h.symm.trans h'

/-- Two steps are the same if the first ones are, and the second ones where the first one ends. -/
theorem run_bind_congr (hx : x.run t = x'.run t)
    (hf : ∀ a t', x'.Returns t a t' → (f a).run t' = (f' a).run t') :
    (x >>= f).run t = (x' >>= f').run t := by
  rw [run_bind, run_bind, hx]
  rcases hrun : x'.run t with ⟨failure | a, t'⟩
  · rfl
  · exact hf a t' hrun

end

end Evaluation

section

variable {host : Host} {g : Nat → Expr → Expr} {t : Trace}

theorem run_applyBinary_congr {operator : BinaryOperator} {value : Value}
    {right right' : Evaluation Value}
    (h : operator.needsRight value = .ok true → right.run t = right'.run t) :
    (applyBinary operator value right).run t = (applyBinary operator value right').run t := by
  rw [applyBinary_eq, applyBinary_eq]
  refine run_bind_congr rfl fun needed t' hneeded => ?_
  obtain ⟨hneeds, rfl⟩ := returns_ofCoercion.1 hneeded
  cases needed with
  | false => rfl
  | true => exact run_bind_congr (h hneeds) fun _ _ _ => rfl

theorem run_lookUp_congr {object : Value} {key key' : Evaluation Value}
    (h : object.isNull = false → key.run t = key'.run t) :
    (lookUp object key).run t = (lookUp object key').run t := by
  rw [lookUp, lookUp]
  cases hnull : object.isNull with
  | true => rfl
  | false => exact run_bind_congr (h hnull) fun _ _ _ => rfl

/-- Arguments are the same if each is, where those in front of it end. -/
theorem run_mapM_mapIdx {arguments : List Expr}
    (h : ∀ i argument values t', arguments[i]? = some argument →
      ((arguments.take i).mapM (evaluate host)).Returns t values t' →
      (evaluate host (g i argument)).run t' = (evaluate host argument).run t') :
    ((arguments.mapIdx g).mapM (evaluate host)).run t =
      (arguments.mapM (evaluate host)).run t := by
  induction arguments generalizing g t with
  | nil => rfl
  | cons first arguments ih =>
    rw [List.mapIdx_cons, List.mapM_cons, List.mapM_cons]
    have hfirst := h 0 first [] t rfl (returns_pure.2 ⟨rfl, rfl⟩)
    refine run_bind_congr hfirst fun value t₁ hvalue => ?_
    refine run_bind_congr (ih fun i argument values t' hargument hbefore => ?_) fun _ _ _ => rfl
    refine h (i + 1) argument (value :: values) t' hargument ?_
    rw [List.take_succ_cons, List.mapM_cons]
    exact returns_bind.2 ⟨value, t₁, hvalue, returns_bind.2
      ⟨values, t', hbefore, returns_pure.2 ⟨rfl, rfl⟩⟩⟩

/-- A node is the same if each of its parts is, where the evaluation comes to it. -/
theorem run_mapParts {e : Expr}
    (h : ∀ i part t', e.parts[i]? = some part → Reaches host e t i t' →
      (evaluate host (g i part)).run t' = (evaluate host part).run t') :
    (evaluate host (e.mapParts g)).run t = (evaluate host e).run t := by
  cases e with
  | literal | identifier | foreign => rfl
  | unary operator operand =>
    rw [Expr.mapParts, evaluate_unary, evaluate_unary]
    exact run_bind_congr (h 0 _ _ rfl .operand) fun _ _ _ => rfl
  | binary operator left right =>
    rw [Expr.mapParts, evaluate_binary, evaluate_binary]
    refine run_bind_congr (h 0 _ _ rfl .left) fun value t' hvalue => ?_
    exact run_applyBinary_congr fun hneeds => h 1 _ _ rfl (.right hvalue hneeds)
  | conditional condition thenBranch elseBranch =>
    rw [Expr.mapParts, evaluate_conditional, evaluate_conditional]
    refine run_bind_congr (h 0 _ _ rfl .condition) fun value t' hvalue => ?_
    refine run_bind_congr rfl fun truth t₁ hcoerced => ?_
    obtain ⟨htruth, rfl⟩ := returns_ofCoercion.1 hcoerced
    cases truth with
    | true => exact h 1 _ _ rfl (.thenBranch hvalue htruth)
    | false => exact h 2 _ _ rfl (.elseBranch hvalue htruth)
  | member object name =>
    rw [Expr.mapParts, evaluate_member, evaluate_member]
    exact run_bind_congr (h 0 _ _ rfl .memberObject) fun _ _ _ => rfl
  | index object key =>
    rw [Expr.mapParts, evaluate_index, evaluate_index]
    refine run_bind_congr (h 0 _ _ rfl .indexObject) fun value t' hvalue => ?_
    exact run_lookUp_congr fun hnull => h 1 _ _ rfl (.key hvalue hnull)
  | call qualifier name arguments =>
    rw [Expr.mapParts, evaluate_call, evaluate_call]
    refine run_bind_congr rfl fun function t₁ hfunction => ?_
    refine run_bind_congr (run_mapM_mapIdx ?_) fun _ _ _ => rfl
    exact fun i argument values t' hargument hbefore =>
      h i argument t' hargument (.argument hfunction hbefore)

/-- **What an evaluation does not come to does not matter.**  With other trees in places that it
does not come to, a tree is evaluated in the same way: what comes out is the same, and so is the
trace. -/
theorem run_replace {e : Expr} {edits : Edits}
    (h : ∀ place e', edits place = some e' → ∀ t', ¬ Comes host e t place t') :
    (evaluate host (e.replace edits)).run t = (evaluate host e).run t := by
  induction e using Expr.induction_parts generalizing t edits with
  | node e ih =>
    have hroot : edits [] = none :=
      Option.eq_none_iff_forall_ne_some.2 fun e' he' => h [] e' he' t .here
    rw [Expr.replace_eq, hroot, Option.getD_none]
    refine run_mapParts fun i part t₁ hpart hreaches => ?_
    refine ih part (List.mem_of_getElem? hpart) fun place e' he' t' hcomes => ?_
    exact h (i :: place) e' he' t' (.inside hreaches hpart hcomes)

end

/-! ## The parts that are left out -/

/-- One access further out. -/
def Expr.accessed (object : Expr) : Accessor → Expr
  | .name name => .member object name
  | .key key => .index object key

/-- The evaluation of the node leaves out its part of that number: the right operand of `&&` or `||`
where the left one decides, the branch that is not selected, a key behind a null in a chain of
accesses, however many links further out, or an argument of a call whose function is not found. -/
inductive Skips (host : Host) : Expr → Trace → Nat → Prop where
  | and {left right : Expr} {value : Value} {t t' : Trace} :
    (evaluate host left).Returns t value t' → value.toBoolean = .ok false →
    Skips host (.binary .and left right) t 1
  | or {left right : Expr} {value : Value} {t t' : Trace} :
    (evaluate host left).Returns t value t' → value.toBoolean = .ok true →
    Skips host (.binary .or left right) t 1
  | thenBranch {condition thenBranch elseBranch : Expr} {value : Value} {t t' : Trace} :
    (evaluate host condition).Returns t value t' → value.toBoolean = .ok false →
    Skips host (.conditional condition thenBranch elseBranch) t 1
  | elseBranch {condition thenBranch elseBranch : Expr} {value : Value} {t t' : Trace} :
    (evaluate host condition).Returns t value t' → value.toBoolean = .ok true →
    Skips host (.conditional condition thenBranch elseBranch) t 2
  | key {object key : Expr} {t t' : Trace} (links : List Accessor) :
    (evaluate host object).Returns t .null t' →
    Skips host (.index (links.foldl Expr.accessed object) key) t 1
  | argument {qualifier : Option Text} {name : Text} {arguments : List Expr} {failure : Failure}
      {i : Nat} {t t' : Trace} :
    (host.askFunction qualifier name).Fails t failure t' →
    Skips host (.call qualifier name arguments) t i

/-- The evaluation of the tree comes to a node that leaves out the part in which the place lies. -/
inductive Skipped (host : Host) : Expr → Trace → List Nat → Prop where
  | here {e : Expr} {i : Nat} {place : List Nat} {t : Trace} :
    Skips host e t i → Skipped host e t (i :: place)
  | inside {e part : Expr} {i : Nat} {place : List Nat} {t t₁ : Trace} :
    Reaches host e t i t₁ → e.parts[i]? = some part → Skipped host part t₁ place →
    Skipped host e t (i :: place)

section

variable {host : Host} {e object : Expr} {i : Nat} {place : List Nat} {t t₁ t₂ : Trace}

/-- A chain behind a null is null. -/
theorem returns_null_accessed (h : (evaluate host object).Returns t .null t₁)
    (links : List Accessor) :
    (evaluate host (links.foldl Expr.accessed object)).Returns t .null t₁ := by
  induction links generalizing object with
  | nil => exact h
  | cons link links ih =>
    refine ih ?_
    cases link with
    | name name =>
      rw [Expr.accessed, evaluate_member]
      exact returns_bind.2 ⟨_, _, h, returns_pure.2 ⟨rfl, rfl⟩⟩
    | key key =>
      rw [Expr.accessed, evaluate_index]
      exact returns_bind.2 ⟨_, _, h, returns_pure.2 ⟨rfl, rfl⟩⟩

/-- An evaluation comes to a part once. -/
theorem Reaches.unique (h : Reaches host e t i t₁) (h' : Reaches host e t i t₂) : t₁ = t₂ := by
  cases h with
  | operand | left | condition | memberObject | indexObject =>
    cases h'
    rfl
  | right h =>
    cases h' with
    | right h' => exact (h.unique h').2
  | thenBranch h =>
    cases h' with
    | thenBranch h' => exact (h.unique h').2
  | elseBranch h =>
    cases h' with
    | elseBranch h' => exact (h.unique h').2
  | key h =>
    cases h' with
    | key h' => exact (h.unique h').2
  | argument hfunction hbefore =>
    cases h' with
    | argument hfunction' hbefore' =>
      obtain ⟨-, rfl⟩ := hfunction.unique hfunction'
      exact (hbefore.unique hbefore').2

/-- An evaluation does not come to what it leaves out. -/
theorem Skips.not_reaches (h : Skips host e t i) : ¬ Reaches host e t i t₁ := by
  intro hreaches
  cases h with
  | and hvalue hfalse =>
    cases hreaches with
    | right hvalue' hneeds =>
      obtain ⟨rfl, -⟩ := hvalue.unique hvalue'
      cases hfalse.symm.trans hneeds
  | or hvalue htrue =>
    cases hreaches with
    | right hvalue' hneeds =>
      obtain ⟨rfl, -⟩ := hvalue.unique hvalue'
      rw [BinaryOperator.needsRight, htrue] at hneeds
      cases hneeds
  | thenBranch hvalue hfalse =>
    cases hreaches with
    | thenBranch hvalue' htrue =>
      obtain ⟨rfl, -⟩ := hvalue.unique hvalue'
      cases hfalse.symm.trans htrue
  | elseBranch hvalue htrue =>
    cases hreaches with
    | elseBranch hvalue' hfalse =>
      obtain ⟨rfl, -⟩ := hvalue.unique hvalue'
      cases htrue.symm.trans hfalse
  | key links hnull =>
    cases hreaches with
    | key hvalue hne =>
      obtain ⟨rfl, -⟩ := (returns_null_accessed hnull links).unique hvalue
      cases hne
  | argument hfails =>
    cases hreaches with
    | argument hfunction => exact hfunction.not_fails hfails

theorem Skipped.not_comes (h : Skipped host e t place) : ¬ Comes host e t place t₁ := by
  induction h generalizing t₁ with
  | here hskips =>
    intro hcomes
    cases hcomes with
    | inside hreaches => exact hskips.not_reaches hreaches
  | inside hreaches hpart _ ih =>
    intro hcomes
    cases hcomes with
    | inside hreaches' hpart' hcomes =>
      cases hreaches.unique hreaches'
      cases hpart.symm.trans hpart'
      exact ih hcomes

/-- **What is not needed cannot be observed.**  Whatever trees stand in the places that an
evaluation leaves out, in any number of places at any depth, what comes out of the whole tree is the
same value or the same failure, and the host is asked for the same variables and functions and does
the same calls in the same order. -/
theorem run_replace_skipped {edits : Edits}
    (h : ∀ place e', edits place = some e' → Skipped host e t place) :
    (evaluate host (e.replace edits)).run t = (evaluate host e).run t :=
  run_replace fun place e' he' _ => (h place e' he').not_comes

/-- In `(a && b ? c : d.x[k]) + f(m)`, where `a` is false, `d` is null and `f` is not known, `b`,
`c`, `k` and `m` are not needed. -/
theorem run_replace_skipped_sum :
    let host : Host :=
      ⟨fun _ name => .ok (if name = ['a'] then .boolean false else .null), fun _ _ _ => .ok none⟩
    let tree (b c k m : Expr) : Expr :=
      .binary .add
        (.conditional (.binary .and (.identifier ['a']) b) c
          (.index (.member (.identifier ['d']) ['x']) k))
        (.call none ['f'] [m])
    let e := tree (.identifier ['b']) (.identifier ['c']) (.identifier ['k']) (.identifier ['m'])
    let edits : Edits := fun place =>
      if place = [0, 0, 1] then some (.foreign "Node".toList)
      else if place = [0, 1] then some (.call none ['g'] [])
      else if place = [0, 2, 1] then some (.unary .negate (.literal (.boolean true)))
      else if place = [1, 0] then some (.identifier ['n'])
      else none
    e.replace edits = tree (.foreign "Node".toList) (.call none ['g'] [])
        (.unary .negate (.literal (.boolean true))) (.identifier ['n']) ∧
      (evaluate host (e.replace edits)).run [] = (evaluate host e).run [] := by
  intro host tree e edits
  obtain ⟨t₁, ha⟩ : ∃ t₁, (evaluate host (.identifier ['a'])).Returns [] (.boolean false) t₁ := by
    rw [evaluate_identifier]
    exact ⟨_, rfl⟩
  obtain ⟨t₂, hd⟩ : ∃ t₂, (evaluate host (.identifier ['d'])).Returns t₁ .null t₂ := by
    rw [evaluate_identifier]
    exact ⟨_, rfl⟩
  have hand : (evaluate host (.binary .and (.identifier ['a']) (.identifier ['b']))).Returns []
      (.boolean false) t₁ := by
    rw [evaluate_binary]
    exact returns_bind.2 ⟨_, _, ha, rfl⟩
  have hsum : (evaluate host (.conditional (.binary .and (.identifier ['a']) (.identifier ['b']))
      (.identifier ['c']) (.index (.member (.identifier ['d']) ['x']) (.identifier ['k'])))).Returns
      [] .null t₂ := by
    rw [evaluate_conditional]
    exact returns_bind.2 ⟨_, _, hand, returns_bind.2 ⟨false, t₁, rfl,
      returns_null_accessed hd [.name ['x'], .key (.identifier ['k'])]⟩⟩
  refine ⟨rfl, run_replace_skipped fun place e' he' => ?_⟩
  simp only [edits] at he'
  split at he'
  · subst place
    exact .inside .left rfl (.inside .condition rfl (.here (.and ha rfl)))
  split at he'
  · subst place
    exact .inside .left rfl (.here (.thenBranch hand rfl))
  split at he'
  · subst place
    exact .inside .left rfl
      (.inside (.elseBranch hand rfl) rfl (.here (.key [.name ['x']] hd)))
  split at he'
  · subst place
    exact .inside (.right hsum rfl) rfl (.here (.argument rfl))
  · cases he'

end

end ExprLang
