import ExprLang.Proofs.EvaluationRules

/-!
# Chains of boolean operators

A conjunction is decided by the first operand that is false, a disjunction by the first one that is
true, and the operands behind it are not evaluated.  Seen as computations of booleans, the two are
one operation, which is associative and which a negation turns into its counterpart.  So it makes no
difference how a chain is grouped, or whether a negation stands in front of it or of its operands:
neither to the value or the failure nor to what the host is asked.

* `shortCircuit` — two computations of booleans of which the first one may decide; with
  `shortCircuit_assoc` and `negated_shortCircuit`.
* `Expr.operands` — the operands of a chain, however it is grouped.
* `evaluate_connective`, `evaluate_negation` — the rules of the nodes.
* `evaluate_regrouped` — the grouping of a chain makes no difference.
* `evaluate_boolean_laws` — associativity and the laws of De Morgan.
-/

namespace ExprLang

open Evaluation

/-! ## Computations of booleans -/

namespace Evaluation

/-- The first computation, and behind it the second one unless the first one decides. -/
def shortCircuit (decisive : Bool) (x y : Evaluation Bool) : Evaluation Bool := do
  if (← x) = decisive then return decisive else y

/-- The opposite of what a computation comes to. -/
def negated (x : Evaluation Bool) : Evaluation Bool := do
  return !(← x)

/-- Computations from left to right up to the first one that decides. -/
def connected (decisive : Bool) (xs : List (Evaluation Bool)) : Evaluation Bool :=
  xs.foldr (shortCircuit decisive) (pure !decisive)

section

variable {decisive : Bool} {x y z : Evaluation Bool} {xs ys : List (Evaluation Bool)}

theorem shortCircuit_assoc :
    shortCircuit decisive (shortCircuit decisive x y) z =
      shortCircuit decisive x (shortCircuit decisive y z) := by
  simp only [shortCircuit, bind_assoc]
  refine bind_congr fun b => ?_
  by_cases hb : b = decisive
  · simp only [if_pos hb, pure_bind, if_true]
  · simp only [if_neg hb]

/-- A computation that never decides may be left out in front. -/
theorem shortCircuit_pure_left : shortCircuit decisive (pure !decisive) y = y := by
  have hne : ¬ (!decisive) = decisive := by cases decisive <;> decide
  simp only [shortCircuit, pure_bind, if_neg hne]

/-- A computation that never decides may be left out at the end. -/
theorem shortCircuit_pure_right : shortCircuit decisive x (pure !decisive) = x := by
  have hvalue : ∀ b : Bool, (if b = decisive then pure decisive else pure !decisive) =
      (pure b : Evaluation Bool) := by
    intro b
    cases b <;> cases decisive <;> rfl
  simp only [shortCircuit, hvalue, bind_pure]

/-- **De Morgan.**  What is decided by one truth is, negated, decided by the other one. -/
theorem negated_shortCircuit :
    negated (shortCircuit decisive x y) = shortCircuit (!decisive) (negated x) (negated y) := by
  simp only [shortCircuit, negated, bind_assoc, pure_bind]
  refine bind_congr fun b => ?_
  cases b <;> cases decisive <;> rfl

theorem connected_append : connected decisive (xs ++ ys) =
    shortCircuit decisive (connected decisive xs) (connected decisive ys) := by
  induction xs with
  | nil => exact shortCircuit_pure_left.symm
  | cons x xs ih =>
    show shortCircuit decisive x (connected decisive (xs ++ ys)) = _
    rw [ih, ← shortCircuit_assoc]
    rfl

theorem connected_singleton : connected decisive [x] = x :=
  shortCircuit_pure_right

end

/-- Nothing but booleans is returned, on whatever trace. -/
def ReturnsBooleans (x : Evaluation Value) : Prop :=
  ∀ trace value after, x.Returns trace value after → ∃ b, value = .boolean b

theorem returnsBooleans_map (x : Evaluation Bool) :
    ReturnsBooleans (do return .boolean (← x)) := by
  intro trace value after h
  obtain ⟨b, between, -, hreturn⟩ := returns_bind.1 h
  obtain ⟨hvalue, -⟩ := returns_pure.1 hreturn
  exact ⟨b, hvalue.symm⟩

end Evaluation

/-! ## The connectives -/

/-- The truth of an operand that decides the connective, for the two operators that are one. -/
def BinaryOperator.decisive? : BinaryOperator → Option Bool
  | .and => some false
  | .or => some true
  | _ => none

/-- The operands of a chain of one connective from left to right, however the chain is grouped. -/
def Expr.operands (connective : BinaryOperator) : Expr → List Expr
  | .binary operator left right =>
    if operator = connective then left.operands connective ++ right.operands connective
    else [.binary operator left right]
  | e => [e]

section

variable {host : Host} {connective : BinaryOperator} {decisive : Bool} {a b c d e : Expr}

/-- A tree with a boolean for its value has that boolean for its truth. -/
theorem evaluateBoolean_eq {x : Evaluation Bool}
    (h : evaluate host e = do return .boolean (← x)) : evaluateBoolean host e = x := by
  rw [evaluateBoolean, h]
  simp only [bind_assoc, pure_bind]
  exact bind_pure x

theorem evaluate_connective (h : connective.decisive? = some decisive) :
    evaluate host (.binary connective a b) = (do
      return .boolean (← shortCircuit decisive (evaluateBoolean host a) (evaluateBoolean host b)))
    := by
  rw [evaluate_binary]
  simp only [shortCircuit, evaluateBoolean, bind_assoc]
  refine bind_congr fun value => ?_
  cases connective with
  | and | or =>
    cases h
    simp only [applyBinary]
    rcases value.toBoolean with error | _ | _
    · rfl
    all_goals simp [ofCoercion, failure_ofCoercion_ok, ofResult]
  | _ => cases h

theorem evaluateBoolean_connective (h : connective.decisive? = some decisive) :
    evaluateBoolean host (.binary connective a b) =
      shortCircuit decisive (evaluateBoolean host a) (evaluateBoolean host b) :=
  evaluateBoolean_eq (evaluate_connective h)

theorem evaluate_negation : evaluate host (.unary .not e) = (do
    return .boolean (← negated (evaluateBoolean host e))) := by
  rw [evaluate_unary]
  simp only [negated, evaluateBoolean, bind_assoc]
  refine bind_congr fun value => ?_
  rw [UnaryOperator.apply]
  cases value.toBoolean <;> rfl

theorem evaluateBoolean_negation :
    evaluateBoolean host (.unary .not e) = negated (evaluateBoolean host e) :=
  evaluateBoolean_eq evaluate_negation

/-- The truth of a chain is that of its operands one behind the other. -/
theorem evaluateBoolean_operands (h : connective.decisive? = some decisive) (e : Expr) :
    evaluateBoolean host e =
      connected decisive ((e.operands connective).map (evaluateBoolean host)) := by
  induction e using Expr.induction_parts with
  | node e ih =>
    cases e with
    | binary operator left right =>
      rw [Expr.operands]
      split
      · rename_i hoperator
        rw [hoperator, List.map_append, connected_append, evaluateBoolean_connective h,
          ih left (by simp [Expr.parts]), ih right (by simp [Expr.parts])]
      · exact connected_singleton.symm
    | _ => exact connected_singleton.symm

/-- Two chains of one connective with the same operands in the same order are the same computation,
however each of them is grouped. -/
theorem evaluate_regrouped (h : connective.decisive? = some decisive)
    (hoperands : (Expr.binary connective a b).operands connective =
      (Expr.binary connective c d).operands connective) :
    evaluate host (.binary connective a b) = evaluate host (.binary connective c d) := by
  rw [evaluate_connective h, evaluate_connective h, ← evaluateBoolean_connective h,
    ← evaluateBoolean_connective h, evaluateBoolean_operands h, hoperands,
    ← evaluateBoolean_operands h]

/-- A negation in front of a chain is the other connective with negated operands. -/
theorem evaluate_not_connective {dual : BinaryOperator} (h : connective.decisive? = some decisive)
    (hdual : dual.decisive? = some !decisive) :
    evaluate host (.unary .not (.binary connective a b)) =
      evaluate host (.binary dual (.unary .not a) (.unary .not b)) := by
  rw [evaluate_negation, evaluateBoolean_connective h, negated_shortCircuit,
    evaluate_connective hdual, evaluateBoolean_negation, evaluateBoolean_negation]

end

/-- **Boolean chains may be regrouped, and negated by De Morgan.**  The two trees of each law are
the same computation for every host: from every trace they come to the same boolean or to the same
failure, with the same look-ups and calls in the same order, whatever the operands do. -/
theorem evaluate_boolean_laws (host : Host) (a b c : Expr) :
    (evaluate host (.binary .and (.binary .and a b) c) =
      evaluate host (.binary .and a (.binary .and b c))) ∧
    (evaluate host (.binary .or (.binary .or a b) c) =
      evaluate host (.binary .or a (.binary .or b c))) ∧
    (evaluate host (.unary .not (.binary .and a b)) =
      evaluate host (.binary .or (.unary .not a) (.unary .not b))) ∧
    (evaluate host (.unary .not (.binary .or a b)) =
      evaluate host (.binary .and (.unary .not a) (.unary .not b))) ∧
    ∀ e ∈ [Expr.binary .and (.binary .and a b) c, .binary .or (.binary .or a b) c,
      .unary .not (.binary .and a b), .unary .not (.binary .or a b)],
      ReturnsBooleans (evaluate host e) := by
  refine ⟨evaluate_regrouped rfl ?_, evaluate_regrouped rfl ?_, evaluate_not_connective rfl rfl,
    evaluate_not_connective rfl rfl, ?_⟩
  · simp only [Expr.operands, if_true, List.append_assoc]
  · simp only [Expr.operands, if_true, List.append_assoc]
  · simp only [List.forall_mem_cons, List.not_mem_nil, false_imp_iff, implies_true, and_true]
    refine ⟨?_, ?_, ?_, ?_⟩
    · rw [evaluate_connective rfl]
      exact returnsBooleans_map _
    · rw [evaluate_connective rfl]
      exact returnsBooleans_map _
    · rw [evaluate_negation]
      exact returnsBooleans_map _
    · rw [evaluate_negation]
      exact returnsBooleans_map _

end ExprLang
