import ExprLang.Proofs.FirstFailure
import Mathlib.Data.List.Forall2

/-!
# Two runs of one tree side by side

A tree is evaluated twice, against two hosts, from two pasts and with values that differ from one
run to the other, all within some bounds.  If no operator and no look-up leaves these bounds, and
the hosts answer within them what they are asked for, then so does the evaluation: its outcomes
correspond, and so do the traces that it leaves.

* `Outcomes`, `Evaluation.Related` — outcomes and computations that correspond, with the laws for
  `do`.
* `Value.Congruence` — a relation on values that operators and look-ups respect.
* `Expr.names` — the variables that occur in a tree.
* `related_evaluate` — evaluations of one tree correspond.
-/

namespace ExprLang

open Evaluation

/-! ## Computations that correspond -/

/-- Two outcomes correspond: they are related values, or the same failure. -/
inductive Outcomes {α β : Type} (R : α → β → Prop) :
    Except Failure α → Except Failure β → Prop where
  | ok {a : α} {b : β} : R a b → Outcomes R (.ok a) (.ok b)
  | error (failure : Failure) : Outcomes R (.error failure) (.error failure)

/-- From related pasts, the computations come to corresponding outcomes with related traces. -/
def Evaluation.Related {α β : Type} (P : Trace → Trace → Prop) (R : α → β → Prop)
    (x : Evaluation α) (y : Evaluation β) : Prop :=
  ∀ ⦃t t' : Trace⦄, P t t' → Outcomes R (x.run t).1 (y.run t').1 ∧ P (x.run t).2 (y.run t').2

section

variable {α β γ δ : Type} {P : Trace → Trace → Prop} {R : α → β → Prop} {S : γ → δ → Prop}

theorem Outcomes.refl {R : α → α → Prop} (hrefl : ∀ a, R a a) (result : Except Failure α) :
    Outcomes R result result := by
  cases result with
  | ok a => exact .ok (hrefl a)
  | error failure => exact .error failure

theorem outcomes_eq_iff {result result' : Except Failure α} :
    Outcomes Eq result result' ↔ result = result' := by
  constructor
  · rintro (⟨rfl⟩ | _) <;> rfl
  · rintro rfl
    exact .refl (fun _ => rfl) result

namespace Evaluation

theorem Related.pure {a : α} {b : β} (h : R a b) : Related P R (pure a) (pure b) :=
  fun _ _ htrace => ⟨.ok h, htrace⟩

theorem Related.throw (failure : Failure) : Related P R (throw failure) (throw failure) :=
  fun _ _ htrace => ⟨.error failure, htrace⟩

theorem Related.ofResult {result : Except Failure α} {result' : Except Failure β}
    (h : Outcomes R result result') :
    Related P R (Evaluation.ofResult result) (Evaluation.ofResult result') := by
  cases h with
  | ok h => exact .pure h
  | error failure => exact .throw failure

theorem Related.ofCoercion (result : Except CoercionError α) :
    Related P Eq (Evaluation.ofCoercion result) (Evaluation.ofCoercion result) :=
  .ofResult (.refl (fun _ => rfl) _)

theorem Related.bind {x : Evaluation α} {y : Evaluation β} {f : α → Evaluation γ}
    {g : β → Evaluation δ} (hxy : Related P R x y)
    (hfg : ∀ a b, R a b → Related P S (f a) (g b)) : Related P S (x >>= f) (y >>= g) := by
  intro t t' htrace
  obtain ⟨houtcomes, hafter⟩ := hxy htrace
  rw [run_bind, run_bind]
  generalize x.run t = run at houtcomes hafter ⊢
  generalize y.run t' = run' at houtcomes hafter ⊢
  obtain ⟨result, after⟩ := run
  obtain ⟨result', after'⟩ := run'
  cases houtcomes with
  | ok hab => exact hfg _ _ hab hafter
  | error failure => exact ⟨.error failure, hafter⟩

theorem Related.trace : Related P P Evaluation.trace Evaluation.trace :=
  fun _ _ htrace => ⟨.ok htrace, htrace⟩

/-- Traces that are compared event by event. -/
theorem Related.record {f : Event → Event} {event event' : Event} (h : f event = f event') :
    Related (fun t t' => t.map f = t'.map f) Eq (Evaluation.record event)
      (Evaluation.record event') := by
  intro t t' htrace
  refine ⟨.ok rfl, ?_⟩
  show (t ++ [event]).map f = (t' ++ [event']).map f
  rw [List.map_append, List.map_append, htrace, List.map_singleton, List.map_singleton, h]

end Evaluation

end

/-! ## Values -/

/-- The relation is kept by operators and look-ups, and it is not seen by what decides how an
evaluation goes on. -/
structure Value.Congruence (R : Value → Value → Prop) : Prop where
  refl : ∀ v, R v v
  isNull : ∀ {v w}, R v w → v.isNull = w.isNull
  toBoolean : ∀ {v w}, R v w → v.toBoolean = w.toBoolean
  unary : ∀ (operator : UnaryOperator) {v w}, R v w →
    Outcomes R (operator.apply v) (operator.apply w)
  binary : ∀ (operator : BinaryOperator) {v v' w w'}, R v v' → R w w' →
    Outcomes R (operator.apply v w) (operator.apply v' w')
  access : ∀ {object object' key key'}, R object object' → R key key' →
    Outcomes R (object.access key) (object'.access key')

theorem Value.congruence_eq : Value.Congruence Eq where
  refl _ := rfl
  isNull h := congrArg _ h
  toBoolean h := congrArg _ h
  unary _ _ _ h := outcomes_eq_iff.2 (congrArg _ h)
  binary _ _ _ _ _ h h' := outcomes_eq_iff.2 (congrArg₂ _ h h')
  access h h' := outcomes_eq_iff.2 (congrArg₂ _ h h')

section

variable {P : Trace → Trace → Prop} {R : Value → Value → Prop}

theorem Value.Congruence.needsRight_eq (hvalues : Value.Congruence R) (operator : BinaryOperator)
    {v w : Value} (h : R v w) : operator.needsRight v = operator.needsRight w := by
  cases operator <;> simp [BinaryOperator.needsRight, hvalues.toBoolean h]

theorem related_applyBinary (hvalues : Value.Congruence R) (operator : BinaryOperator)
    {v w : Value} {right right' : Evaluation Value} (h : R v w)
    (hright : Related P R right right') :
    Related P R (applyBinary operator v right) (applyBinary operator w right') := by
  rw [applyBinary_eq, applyBinary_eq, hvalues.needsRight_eq operator h]
  refine .bind (.ofCoercion _) fun needed _ heq => ?_
  subst heq
  cases needed with
  | true => exact .bind hright fun v' w' h' => .ofResult (hvalues.binary operator h h')
  | false => exact .pure (hvalues.refl _)

theorem related_lookUp (hvalues : Value.Congruence R) {object object' : Value}
    {key key' : Evaluation Value} (h : R object object') (hkey : Related P R key key') :
    Related P R (lookUp object key) (lookUp object' key') := by
  rw [lookUp, lookUp, hvalues.isNull h]
  split
  · exact .pure (hvalues.refl _)
  · refine .bind hkey fun v w hvw => ?_
    rw [hvalues.isNull hvw]
    split
    · exact .pure (hvalues.refl _)
    · exact .ofResult (hvalues.access h hvw)

theorem related_mapM {f g : Expr → Evaluation Value} {items : List Expr}
    (h : ∀ item ∈ items, Related P R (f item) (g item)) :
    Related P (List.Forall₂ R) (items.mapM f) (items.mapM g) := by
  induction items with
  | nil => exact .pure .nil
  | cons item items ih =>
    obtain ⟨hitem, hitems⟩ := List.forall_mem_cons.1 h
    rw [List.mapM_cons, List.mapM_cons]
    exact .bind hitem fun v w hvw => .bind (ih hitems) fun vs ws hvws => .pure (.cons hvw hvws)

end

/-! ## Trees -/

namespace Expr

mutual

/-- The variables that occur in the tree, in the order of the source. -/
def names : Expr → List Text
  | .literal _ | .foreign _ => []
  | .identifier name => [name]
  | .unary _ operand => names operand
  | .binary _ left right => names left ++ names right
  | .conditional condition thenBranch elseBranch =>
    names condition ++ names thenBranch ++ names elseBranch
  | .member object _ => names object
  | .index object key => names object ++ names key
  | .call _ _ arguments => namesAll arguments

def namesAll : List Expr → List Text
  | [] => []
  | e :: es => names e ++ namesAll es

end

theorem namesAll_eq (es : List Expr) : namesAll es = es.flatMap names := by
  induction es with
  | nil => rfl
  | cons e es ih => rw [namesAll, ih, List.flatMap_cons]

theorem names_part_subset {e part : Expr} (h : part ∈ e.parts) :
    part.names ⊆ e.names := by
  intro name hname
  cases e with
  | literal | identifier | foreign => cases h
  | call _ _ arguments =>
    rw [names, namesAll_eq]
    exact List.mem_flatMap.2 ⟨part, h, hname⟩
  | unary | binary | conditional | member | index =>
    simp only [parts, List.mem_cons, List.not_mem_nil, or_false] at h
    rcases h with rfl | rfl | rfl <;> simp [names, hname]

end Expr

section

variable {host host' : Host} {P : Trace → Trace → Prop} {R : Value → Value → Prop}
  {F : HostFunction → HostFunction → Prop} {e : Expr}

/-- **Two runs of one tree.**  If the hosts answer alike what the tree asks them for, and values are
related in a way that operators and look-ups respect, then the evaluations of the tree against the
two hosts correspond. -/
theorem related_evaluate (hvalues : Value.Congruence R)
    (hvariable : ∀ name ∈ e.names, Related P R (host.askVariable name) (host'.askVariable name))
    (hfunction : ∀ qualifier name,
      Related P F (host.askFunction qualifier name) (host'.askFunction qualifier name))
    (hcall : ∀ qualifier name {f g vs ws}, F f g → List.Forall₂ R vs ws →
      Related P R (Host.call qualifier name f vs) (Host.call qualifier name g ws)) :
    Related P R (evaluate host e) (evaluate host' e) := by
  induction e using Expr.induction_parts with
  | node e ih =>
    replace ih : ∀ part ∈ e.parts, Related P R (evaluate host part) (evaluate host' part) :=
      fun part hpart => ih part hpart fun name hname =>
        hvariable name (Expr.names_part_subset hpart hname)
    cases e with
    | literal value =>
      rw [evaluate_literal, evaluate_literal]
      exact .pure (hvalues.refl value)
    | identifier name =>
      rw [evaluate_identifier, evaluate_identifier]
      exact hvariable name List.mem_cons_self
    | foreign typeName =>
      rw [evaluate_foreign, evaluate_foreign]
      exact .throw _
    | unary operator operand =>
      rw [evaluate_unary, evaluate_unary]
      exact .bind (ih operand List.mem_cons_self) fun v w hvw =>
        .ofResult (hvalues.unary operator hvw)
    | binary operator left right =>
      rw [evaluate_binary, evaluate_binary]
      exact .bind (ih left (by simp [Expr.parts])) fun v w hvw =>
        related_applyBinary hvalues operator hvw (ih right (by simp [Expr.parts]))
    | conditional condition thenBranch elseBranch =>
      rw [evaluate_conditional, evaluate_conditional]
      refine .bind (ih condition (by simp [Expr.parts])) fun v w hvw => ?_
      rw [hvalues.toBoolean hvw]
      refine .bind (.ofCoercion _) fun truth _ heq => ?_
      subst heq
      cases truth with
      | true => exact ih thenBranch (by simp [Expr.parts])
      | false => exact ih elseBranch (by simp [Expr.parts])
    | member object name =>
      rw [evaluate_member, evaluate_member]
      exact .bind (ih object (by simp [Expr.parts])) fun v w hvw =>
        related_lookUp hvalues hvw (.pure (hvalues.refl _))
    | index object key =>
      rw [evaluate_index, evaluate_index]
      exact .bind (ih object (by simp [Expr.parts])) fun v w hvw =>
        related_lookUp hvalues hvw (ih key (by simp [Expr.parts]))
    | call qualifier name arguments =>
      rw [evaluate_call, evaluate_call]
      refine .bind (hfunction qualifier name) fun f g hfg => ?_
      exact .bind (related_mapM ih) fun vs ws hvws => hcall qualifier name hfg hvws

end

end ExprLang
