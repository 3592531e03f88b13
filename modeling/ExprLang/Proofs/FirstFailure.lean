import ExprLang.Proofs.EvaluationRules

/-!
# Where an evaluation fails

An evaluation comes to the nodes of its tree one after the other, and it leaves out those that are
not needed.  It fails if and only if one of the nodes that it comes to fails by itself, after its
parts have returned; what comes out of the whole tree is the failure of that node, with nothing
asked of the host any more.

* `fails_askVariable`, `fails_askFunction`, `fails_call` — what a failure of the host turns into.
* `applyBinary_eq` — all binary operators in one form.
* `Enters`, `Visits` — the nodes that an evaluation comes to, with the trace at that time.
* `Raises` — a node fails by itself.
* `fails_iff_raises` — an evaluation fails exactly as a node that it visits.
-/

namespace ExprLang

open Evaluation

/-! ## Failures of the host -/

section

variable {host : Host} {qualifier : Option Text} {name : Text} {failure : Failure} {t t' : Trace}

theorem run_trace_bind {α : Type} {f : Trace → Evaluation α} :
    (trace >>= f).run t = (f t).run t :=
  rfl

theorem run_record_bind {α : Type} {event : Event} {f : Unit → Evaluation α} :
    (record event >>= f).run t = (f ()).run (t ++ [event]) :=
  rfl

theorem fails_askVariable : (host.askVariable name).Fails t failure t' ↔
    ∃ cause, host.resolveVariable t name = .error cause ∧
      failure = (if cause.isEvaluation then cause else .wrap (.resolution name) cause) ∧
      t' = t ++ [.variableLookup name (.error cause)] := by
  rw [Fails, Host.askVariable, run_trace_bind, run_record_bind, ← Fails]
  cases host.resolveVariable t name with
  | ok value => cases value <;> simp [not_fails_pure]
  | error cause =>
    rw [fails_throw]
    constructor
    · rintro ⟨rfl, rfl⟩
      exact ⟨cause, rfl, rfl, rfl⟩
    · rintro ⟨_, ⟨⟩, rfl, rfl⟩
      exact ⟨rfl, rfl⟩

theorem fails_askFunction : (host.askFunction qualifier name).Fails t failure t' ↔
    (∃ cause, host.resolveFunction t qualifier name = .error cause ∧
      failure = (if cause.isEvaluation then cause else .wrap (.invocation qualifier name) cause) ∧
      t' = t ++ [.functionLookup qualifier name (.error cause)]) ∨
    host.resolveFunction t qualifier name = .ok none ∧
      failure = .unknownFunction qualifier name ∧
      t' = t ++ [.functionLookup qualifier name (.ok false)] := by
  rw [Fails, Host.askFunction, run_trace_bind, run_record_bind, ← Fails]
  rcases host.resolveFunction t qualifier name with cause | _ | function
  · rw [fails_throw]
    constructor
    · rintro ⟨rfl, rfl⟩
      exact .inl ⟨cause, rfl, rfl, rfl⟩
    · rintro (⟨_, ⟨⟩, rfl, rfl⟩ | ⟨h, -⟩)
      · exact ⟨rfl, rfl⟩
      · cases h
  · rw [fails_throw]
    constructor
    · rintro ⟨rfl, rfl⟩
      exact .inr ⟨rfl, rfl, rfl⟩
    · rintro (⟨_, h, -⟩ | ⟨-, rfl, rfl⟩)
      · cases h
      · exact ⟨rfl, rfl⟩
  · simp [not_fails_pure]

theorem returns_askFunction {function : HostFunction} :
    (host.askFunction qualifier name).Returns t function t' ↔
      host.resolveFunction t qualifier name = .ok (some function) ∧
        t' = t ++ [.functionLookup qualifier name (.ok true)] := by
  rw [Returns, Host.askFunction, run_trace_bind, run_record_bind, ← Returns]
  rcases host.resolveFunction t qualifier name with cause | _ | found
  · simp [not_returns_throw]
  · simp [not_returns_throw]
  · rw [returns_pure]
    simp [Except.map, eq_comm]

theorem fails_call {function : HostFunction} {values : List Value} :
    (Host.call qualifier name function values).Fails t failure t' ↔
      ∃ cause, function t values = .error cause ∧
        failure = .wrap (.invocation qualifier name) cause ∧
        t' = t ++ [.call qualifier name values (.error cause)] := by
  rw [Fails, Host.call, run_trace_bind, run_record_bind, ← Fails]
  cases function t values with
  | ok value => simp [not_fails_pure]
  | error cause =>
    rw [fails_throw]
    constructor
    · rintro ⟨rfl, rfl⟩
      exact ⟨cause, rfl, rfl, rfl⟩
    · rintro ⟨_, ⟨⟩, rfl, rfl⟩
      exact ⟨rfl, rfl⟩

end

/-! ## Operators and what they need -/

/-- Whether an operator needs its right operand, once the value of the left one is known. -/
def BinaryOperator.needsRight (operator : BinaryOperator) (left : Value) :
    Except CoercionError Bool :=
  match operator with
  | .and => left.toBoolean
  | .or => left.toBoolean.map (!·)
  | _ => .ok true

/-- All binary operators in one form: what decides without the right operand is a boolean. -/
theorem applyBinary_eq (operator : BinaryOperator) (left : Value) (right : Evaluation Value) :
    applyBinary operator left right = (do
      if ← ofCoercion (operator.needsRight left) then
        ofResult (operator.apply left (← right))
      else
        return .boolean (operator = .or)) := by
  have hvalue : ∀ value : Value, (do return Value.boolean (← ofCoercion value.toBoolean)) =
      ofResult (Failure.ofCoercion do return Value.boolean (← value.toBoolean)) := by
    intro value
    cases value.toBoolean <;> rfl
  cases operator with
  | and =>
    simp only [applyBinary, BinaryOperator.needsRight, BinaryOperator.apply]
    rcases left.toBoolean with error | _ | _
    · rfl
    · rfl
    · exact bind_congr (x := right) hvalue
  | or =>
    simp only [applyBinary, BinaryOperator.needsRight, BinaryOperator.apply]
    rcases left.toBoolean with error | _ | _
    · rfl
    · exact bind_congr (x := right) hvalue
    · rfl
  | _ => rfl

/-! ## The nodes that an evaluation comes to -/

/-- One step down a tree: the evaluation of the node comes to the evaluation of this part of it. -/
inductive Enters (host : Host) : Expr → Trace → Expr → Trace → Prop where
  | operand {operator : UnaryOperator} {operand : Expr} {t : Trace} :
    Enters host (.unary operator operand) t operand t
  | left {operator : BinaryOperator} {left right : Expr} {t : Trace} :
    Enters host (.binary operator left right) t left t
  | right {operator : BinaryOperator} {left right : Expr} {value : Value} {t t' : Trace} :
    (evaluate host left).Returns t value t' → operator.needsRight value = .ok true →
    Enters host (.binary operator left right) t right t'
  | condition {condition thenBranch elseBranch : Expr} {t : Trace} :
    Enters host (.conditional condition thenBranch elseBranch) t condition t
  | thenBranch {condition thenBranch elseBranch : Expr} {value : Value} {t t' : Trace} :
    (evaluate host condition).Returns t value t' → value.toBoolean = .ok true →
    Enters host (.conditional condition thenBranch elseBranch) t thenBranch t'
  | elseBranch {condition thenBranch elseBranch : Expr} {value : Value} {t t' : Trace} :
    (evaluate host condition).Returns t value t' → value.toBoolean = .ok false →
    Enters host (.conditional condition thenBranch elseBranch) t elseBranch t'
  | memberObject {object : Expr} {name : Text} {t : Trace} :
    Enters host (.member object name) t object t
  | indexObject {object key : Expr} {t : Trace} : Enters host (.index object key) t object t
  | key {object key : Expr} {value : Value} {t t' : Trace} :
    (evaluate host object).Returns t value t' → value.isNull = false →
    Enters host (.index object key) t key t'
  | argument {qualifier : Option Text} {name : Text} {before after : List Expr} {argument : Expr}
      {function : HostFunction} {values : List Value} {t t₁ t₂ : Trace} :
    (host.askFunction qualifier name).Returns t function t₁ →
    (before.mapM (evaluate host)).Returns t₁ values t₂ →
    Enters host (.call qualifier name (before ++ argument :: after)) t argument t₂

/-- The evaluation of the tree from the one trace comes to that of the node from the other one. -/
inductive Visits (host : Host) : Expr → Trace → Expr → Trace → Prop where
  | here {e : Expr} {t : Trace} : Visits host e t e t
  | inside {e part node : Expr} {t t₁ t₂ : Trace} :
    Enters host e t part t₁ → Visits host part t₁ node t₂ → Visits host e t node t₂

/-- The node fails by itself: its parts, as far as they are needed, have returned. -/
inductive Raises (host : Host) : Expr → Trace → Failure → Trace → Prop where
  | identifier {name : Text} {failure : Failure} {t t' : Trace} :
    (host.askVariable name).Fails t failure t' → Raises host (.identifier name) t failure t'
  | unary {operator : UnaryOperator} {operand : Expr} {value : Value} {failure : Failure}
      {t t' : Trace} :
    (evaluate host operand).Returns t value t' → operator.apply value = .error failure →
    Raises host (.unary operator operand) t failure t'
  | leftBoolean {operator : BinaryOperator} {left right : Expr} {value : Value}
      {error : CoercionError} {t t' : Trace} :
    (evaluate host left).Returns t value t' → operator.needsRight value = .error error →
    Raises host (.binary operator left right) t (.coercion error) t'
  | binary {operator : BinaryOperator} {left right : Expr} {v w : Value} {failure : Failure}
      {t t₁ t' : Trace} :
    (evaluate host left).Returns t v t₁ → operator.needsRight v = .ok true →
    (evaluate host right).Returns t₁ w t' → operator.apply v w = .error failure →
    Raises host (.binary operator left right) t failure t'
  | condition {condition thenBranch elseBranch : Expr} {value : Value} {error : CoercionError}
      {t t' : Trace} :
    (evaluate host condition).Returns t value t' → value.toBoolean = .error error →
    Raises host (.conditional condition thenBranch elseBranch) t (.coercion error) t'
  | member {object : Expr} {name : Text} {value : Value} {failure : Failure} {t t' : Trace} :
    (evaluate host object).Returns t value t' → value.isNull = false →
    value.access (.string name) = .error failure →
    Raises host (.member object name) t failure t'
  | index {object key : Expr} {v w : Value} {failure : Failure} {t t₁ t' : Trace} :
    (evaluate host object).Returns t v t₁ → v.isNull = false →
    (evaluate host key).Returns t₁ w t' → w.isNull = false → v.access w = .error failure →
    Raises host (.index object key) t failure t'
  | function {qualifier : Option Text} {name : Text} {arguments : List Expr} {failure : Failure}
      {t t' : Trace} :
    (host.askFunction qualifier name).Fails t failure t' →
    Raises host (.call qualifier name arguments) t failure t'
  | call {qualifier : Option Text} {name : Text} {arguments : List Expr} {function : HostFunction}
      {values : List Value} {failure : Failure} {t t₁ t₂ t' : Trace} :
    (host.askFunction qualifier name).Returns t function t₁ →
    (arguments.mapM (evaluate host)).Returns t₁ values t₂ →
    (Host.call qualifier name function values).Fails t₂ failure t' →
    Raises host (.call qualifier name arguments) t failure t'
  | foreign {typeName : Text} {t : Trace} :
    Raises host (.foreign typeName) t (.unknownNode typeName) t

theorem Enters.mem_parts {host : Host} {e part : Expr} {t t' : Trace}
    (h : Enters host e t part t') : part ∈ e.parts := by
  cases h <;> simp [Expr.parts]

/-! ## The failure of a node -/

section

variable {host : Host} {e object key : Expr} {failure : Failure} {t t' : Trace}

theorem fails_mapM {α β : Type} {f : α → Evaluation β} {items : List α} :
    (items.mapM f).Fails t failure t' ↔ ∃ before item after values t₁,
      items = before ++ item :: after ∧ (before.mapM f).Returns t values t₁ ∧
        (f item).Fails t₁ failure t' := by
  induction items generalizing t with
  | nil => simp [not_fails_pure]
  | cons first items ih =>
    simp only [List.mapM_cons, fails_bind, not_fails_pure, and_false, exists_false, or_false, ih]
    constructor
    · rintro (hfirst | ⟨value, t₁, hfirst, before, item, after, values, t₂, rfl, hbefore, hitem⟩)
      · exact ⟨[], first, items, [], t, rfl, by simp [returns_pure], hfirst⟩
      · refine ⟨first :: before, item, after, value :: values, t₂, rfl, ?_, hitem⟩
        rw [List.mapM_cons, returns_bind]
        refine ⟨value, t₁, hfirst, returns_bind.2 ⟨values, t₂, hbefore, ?_⟩⟩
        exact returns_pure.2 ⟨rfl, rfl⟩
    · rintro ⟨before, item, after, values, t₁, heq, hbefore, hitem⟩
      cases before with
      | nil =>
        cases heq
        obtain ⟨-, rfl⟩ := returns_pure.1 hbefore
        exact .inl hitem
      | cons first' before =>
        cases heq
        rw [List.mapM_cons, returns_bind] at hbefore
        obtain ⟨value, t₂, hfirst, hrest⟩ := hbefore
        obtain ⟨values', t₃, hbefore, hpure⟩ := returns_bind.1 hrest
        obtain ⟨-, rfl⟩ := returns_pure.1 hpure
        exact .inr ⟨value, t₂, hfirst, before, item, after, values', t₃, rfl, hbefore, hitem⟩

theorem fails_lookUp {object : Value} {key : Evaluation Value} :
    (lookUp object key).Fails t failure t' ↔ object.isNull = false ∧
      (key.Fails t failure t' ∨
        ∃ value, key.Returns t value t' ∧ value.isNull = false ∧
          object.access value = .error failure) := by
  rw [lookUp]
  cases object.isNull with
  | true => simp [not_fails_pure]
  | false =>
    simp only [Bool.false_eq_true, if_false, fails_bind, true_and]
    refine or_congr_right ⟨?_, ?_⟩
    · rintro ⟨value, t₁, hkey, hrest⟩
      split at hrest
      · exact absurd hrest not_fails_pure
      · rename_i hnull
        obtain ⟨haccess, rfl⟩ := fails_ofResult.1 hrest
        exact ⟨value, hkey, by simpa using hnull, haccess⟩
    · rintro ⟨value, hkey, hnull, haccess⟩
      refine ⟨value, t', hkey, ?_⟩
      rw [hnull]
      exact fails_ofResult.2 ⟨haccess, rfl⟩

theorem fails_applyBinary {operator : BinaryOperator} {left : Value} {right : Evaluation Value} :
    (applyBinary operator left right).Fails t failure t' ↔
      (∃ error, operator.needsRight left = .error error ∧ failure = .coercion error ∧ t = t') ∨
      operator.needsRight left = .ok true ∧
        (right.Fails t failure t' ∨
          ∃ value, right.Returns t value t' ∧ operator.apply left value = .error failure) := by
  rw [applyBinary_eq, fails_bind, fails_ofCoercion]
  refine or_congr ⟨?_, ?_⟩ ⟨?_, ?_⟩
  · rintro ⟨⟨error, herror, rfl⟩, rfl⟩
    exact ⟨error, herror, rfl, rfl⟩
  · rintro ⟨error, herror, rfl, rfl⟩
    exact ⟨⟨error, herror, rfl⟩, rfl⟩
  · rintro ⟨needed, t₁, hneeded, hrest⟩
    obtain ⟨hneeds, rfl⟩ := returns_ofCoercion.1 hneeded
    cases needed with
    | false => exact absurd hrest not_fails_pure
    | true =>
      refine ⟨hneeds, (fails_bind.1 hrest).imp_right ?_⟩
      rintro ⟨value, t₂, hright, happly⟩
      obtain ⟨herror, rfl⟩ := fails_ofResult.1 happly
      exact ⟨value, hright, herror⟩
  · rintro ⟨hneeds, hrest⟩
    refine ⟨true, t, returns_ofCoercion.2 ⟨hneeds, rfl⟩, fails_bind.2 (hrest.imp_right ?_)⟩
    rintro ⟨value, hright, happly⟩
    exact ⟨value, t', hright, fails_ofResult.2 ⟨happly, rfl⟩⟩

/-- A node fails if it fails by itself or a part does that it comes to. -/
theorem fails_iff_raises_or_part : (evaluate host e).Fails t failure t' ↔
    Raises host e t failure t' ∨
      ∃ part t₁, Enters host e t part t₁ ∧ (evaluate host part).Fails t₁ failure t' := by
  constructor
  · intro h
    cases e with
    | literal value =>
      rw [evaluate_literal] at h
      exact absurd h not_fails_pure
    | identifier name =>
      rw [evaluate_identifier] at h
      exact .inl (.identifier h)
    | foreign typeName =>
      rw [evaluate_foreign] at h
      obtain ⟨rfl, rfl⟩ := fails_throw.1 h
      exact .inl .foreign
    | unary operator operand =>
      rw [evaluate_unary] at h
      rcases fails_bind.1 h with h | ⟨value, t₁, hvalue, h⟩
      · exact .inr ⟨_, _, .operand, h⟩
      · obtain ⟨happly, rfl⟩ := fails_ofResult.1 h
        exact .inl (.unary hvalue happly)
    | binary operator left right =>
      rw [evaluate_binary] at h
      rcases fails_bind.1 h with h | ⟨value, t₁, hvalue, h⟩
      · exact .inr ⟨_, _, .left, h⟩
      · rcases fails_applyBinary.1 h with ⟨error, herror, rfl, rfl⟩ | ⟨hneeds, h | ⟨w, hw, happly⟩⟩
        · exact .inl (.leftBoolean hvalue herror)
        · exact .inr ⟨_, _, .right hvalue hneeds, h⟩
        · exact .inl (.binary hvalue hneeds hw happly)
    | conditional condition thenBranch elseBranch =>
      rw [evaluate_conditional] at h
      rcases fails_bind.1 h with h | ⟨value, t₁, hvalue, h⟩
      · exact .inr ⟨_, _, .condition, h⟩
      · rcases fails_bind.1 h with h | ⟨truth, t₂, hcoerced, h⟩
        · obtain ⟨⟨error, herror, rfl⟩, rfl⟩ := fails_ofCoercion.1 h
          exact .inl (.condition hvalue herror)
        · obtain ⟨htruth, rfl⟩ := returns_ofCoercion.1 hcoerced
          cases truth with
          | true => exact .inr ⟨_, _, .thenBranch hvalue htruth, h⟩
          | false => exact .inr ⟨_, _, .elseBranch hvalue htruth, h⟩
    | member object name =>
      rw [evaluate_member] at h
      rcases fails_bind.1 h with h | ⟨value, t₁, hvalue, h⟩
      · exact .inr ⟨_, _, .memberObject, h⟩
      · obtain ⟨hnull, h | ⟨key, hkey, -, haccess⟩⟩ := fails_lookUp.1 h
        · exact absurd h not_fails_pure
        · obtain ⟨rfl, rfl⟩ := returns_pure.1 hkey
          exact .inl (.member hvalue hnull haccess)
    | index object key =>
      rw [evaluate_index] at h
      rcases fails_bind.1 h with h | ⟨value, t₁, hvalue, h⟩
      · exact .inr ⟨_, _, .indexObject, h⟩
      · obtain ⟨hnull, h | ⟨w, hw, hkey, haccess⟩⟩ := fails_lookUp.1 h
        · exact .inr ⟨_, _, .key hvalue hnull, h⟩
        · exact .inl (.index hvalue hnull hw hkey haccess)
    | call qualifier name arguments =>
      rw [evaluate_call] at h
      rcases fails_bind.1 h with h | ⟨function, t₁, hfunction, h⟩
      · exact .inl (.function h)
      · rcases fails_bind.1 h with h | ⟨values, t₂, hvalues, h⟩
        · obtain ⟨before, argument, after, values, t₂, rfl, hbefore, h⟩ := fails_mapM.1 h
          exact .inr ⟨_, _, .argument hfunction hbefore, h⟩
        · exact .inl (.call hfunction hvalues h)
  · rintro (h | ⟨part, t₁, henters, h⟩)
    · cases h with
      | identifier h => rwa [evaluate_identifier]
      | foreign =>
        rw [evaluate_foreign]
        exact fails_throw.2 ⟨rfl, rfl⟩
      | unary hvalue happly =>
        rw [evaluate_unary]
        exact fails_bind.2 (.inr ⟨_, _, hvalue, fails_ofResult.2 ⟨happly, rfl⟩⟩)
      | leftBoolean hvalue herror =>
        rw [evaluate_binary]
        exact fails_bind.2 (.inr ⟨_, _, hvalue, fails_applyBinary.2 (.inl ⟨_, herror, rfl, rfl⟩)⟩)
      | binary hv hneeds hw happly =>
        rw [evaluate_binary]
        exact fails_bind.2 (.inr ⟨_, _, hv, fails_applyBinary.2
          (.inr ⟨hneeds, .inr ⟨_, hw, happly⟩⟩)⟩)
      | condition hvalue herror =>
        rw [evaluate_conditional]
        exact fails_bind.2 (.inr ⟨_, _, hvalue, fails_bind.2
          (.inl (fails_ofCoercion.2 ⟨⟨_, herror, rfl⟩, rfl⟩))⟩)
      | member hvalue hnull haccess =>
        rw [evaluate_member]
        exact fails_bind.2 (.inr ⟨_, _, hvalue, fails_lookUp.2
          ⟨hnull, .inr ⟨_, returns_pure.2 ⟨rfl, rfl⟩, rfl, haccess⟩⟩⟩)
      | index hv hnull hw hkey haccess =>
        rw [evaluate_index]
        exact fails_bind.2 (.inr ⟨_, _, hv, fails_lookUp.2
          ⟨hnull, .inr ⟨_, hw, hkey, haccess⟩⟩⟩)
      | function h =>
        rw [evaluate_call]
        exact fails_bind.2 (.inl h)
      | call hfunction hvalues h =>
        rw [evaluate_call]
        exact fails_bind.2 (.inr ⟨_, _, hfunction, fails_bind.2 (.inr ⟨_, _, hvalues, h⟩)⟩)
    · cases henters with
      | operand =>
        rw [evaluate_unary]
        exact fails_bind.2 (.inl h)
      | left =>
        rw [evaluate_binary]
        exact fails_bind.2 (.inl h)
      | right hvalue hneeds =>
        rw [evaluate_binary]
        exact fails_bind.2 (.inr ⟨_, _, hvalue, fails_applyBinary.2 (.inr ⟨hneeds, .inl h⟩)⟩)
      | condition =>
        rw [evaluate_conditional]
        exact fails_bind.2 (.inl h)
      | thenBranch hvalue htruth | elseBranch hvalue htruth =>
        rw [evaluate_conditional]
        exact fails_bind.2 (.inr ⟨_, _, hvalue, fails_bind.2
          (.inr ⟨_, _, returns_ofCoercion.2 ⟨htruth, rfl⟩, h⟩)⟩)
      | memberObject =>
        rw [evaluate_member]
        exact fails_bind.2 (.inl h)
      | indexObject =>
        rw [evaluate_index]
        exact fails_bind.2 (.inl h)
      | key hvalue hnull =>
        rw [evaluate_index]
        exact fails_bind.2 (.inr ⟨_, _, hvalue, fails_lookUp.2 ⟨hnull, .inl h⟩⟩)
      | argument hfunction hbefore =>
        rw [evaluate_call]
        exact fails_bind.2 (.inr ⟨_, _, hfunction, fails_bind.2
          (.inl (fails_mapM.2 ⟨_, _, _, _, _, rfl, hbefore, h⟩))⟩)

/-! ## The failure of a tree -/

/-- **Where an evaluation fails.**  The evaluation of a tree fails if and only if it comes to a node
that fails by itself, and then with the failure of that node and the trace at that time. -/
theorem fails_iff_raises : (evaluate host e).Fails t failure t' ↔
    ∃ node t₁, Visits host e t node t₁ ∧ Raises host node t₁ failure t' := by
  constructor
  · intro h
    induction e using Expr.induction_parts generalizing t with
    | node e ih =>
      rcases fails_iff_raises_or_part.1 h with hraises | ⟨part, t₁, henters, hpart⟩
      · exact ⟨e, t, .here, hraises⟩
      · obtain ⟨node, t₂, hvisits, hraises⟩ := ih part henters.mem_parts hpart
        exact ⟨node, t₂, .inside henters hvisits, hraises⟩
  · rintro ⟨node, t₁, hvisits, hraises⟩
    induction hvisits with
    | here => exact fails_iff_raises_or_part.2 (.inl hraises)
    | inside henters _ ih => exact fails_iff_raises_or_part.2 (.inr ⟨_, _, henters, ih hraises⟩)

end

end ExprLang
