import ExprLang.Proofs.CallOrder

/-!
# The origin of a failure

An evaluation that fails has come to one node that failed by itself.  What lies around this node
fails with the very same failure, and nothing is asked of the host any more; everything else that
the evaluation has come to has returned.  So no node wraps, replaces or catches the failure of a
part, a call those of its arguments included.

A failure of the host is wrapped where it comes in, and only there: what a function fails with is
the cause of a failure that names the call, and so is what a look-up fails with, unless it is a
failure of the engine's own, which is passed on as it is.  A cause has to have a text for that: if
it has none, what asking for the text fails with comes in its place.

* `returns_of_raises`, `returns_of_other` — the parts that a failing node has come to.
* `FirstFailure` — the place where an evaluation fails, and what became of all others.
* `Wraps`, `Relays` — what becomes of a failure of the host.
* `ReportsOnce` — a failure is reported once and unchanged; `evaluate_reportsOnce` — so it is in
  every evaluation.
* `call_not_wrapped_textless` — a failure of a function that is not wrapped, since it has no text.
-/

namespace ExprLang

open Evaluation

/-! ## The parts of a failing node -/

section

variable {host : Host} {e part : Expr} {i j : Nat} {failure : Failure} {t t' t₁ t₂ : Trace}

theorem Enters.reaches (h : Enters host e t part t₁) :
    ∃ i, Reaches host e t i t₁ ∧ e.parts[i]? = some part := by
  cases h with
  | operand => exact ⟨0, .operand, rfl⟩
  | left => exact ⟨0, .left, rfl⟩
  | right hvalue hneeds => exact ⟨1, .right hvalue hneeds, rfl⟩
  | condition => exact ⟨0, .condition, rfl⟩
  | thenBranch hvalue htruth => exact ⟨1, .thenBranch hvalue htruth, rfl⟩
  | elseBranch hvalue htruth => exact ⟨2, .elseBranch hvalue htruth, rfl⟩
  | memberObject => exact ⟨0, .memberObject, rfl⟩
  | indexObject => exact ⟨0, .indexObject, rfl⟩
  | key hvalue hnull => exact ⟨1, .key hvalue hnull, rfl⟩
  | @argument _ _ before after _ _ values _ t₂ _ hfunction hbefore =>
    have htake : (((before ++ part :: after).take before.length).mapM (evaluate host)).Returns
        t₂ values t₁ := by rwa [List.take_left]
    exact ⟨before.length, .argument hfunction htake, by simp [Expr.parts]⟩

/-- A node that fails by itself has come to parts only that returned. -/
theorem returns_of_raises (hraises : Raises host e t failure t') (hreaches : Reaches host e t i t₁)
    (hpart : e.parts[i]? = some part) : ∃ value t₂, (evaluate host part).Returns t₁ value t₂ := by
  cases hraises with
  | identifier | foreign => cases hreaches
  | unary hvalue =>
    cases hreaches
    cases hpart
    exact ⟨_, _, hvalue⟩
  | leftBoolean hvalue herror =>
    cases hreaches with
    | left =>
      cases hpart
      exact ⟨_, _, hvalue⟩
    | right hvalue' hneeds =>
      cases (hvalue.unique hvalue').1
      cases herror.symm.trans hneeds
  | binary hv _ hw =>
    cases hreaches with
    | left =>
      cases hpart
      exact ⟨_, _, hv⟩
    | right hv' =>
      cases hpart
      cases (hv.unique hv').2
      exact ⟨_, _, hw⟩
  | condition hvalue herror =>
    cases hreaches with
    | condition =>
      cases hpart
      exact ⟨_, _, hvalue⟩
    | thenBranch hvalue' htruth | elseBranch hvalue' htruth =>
      cases (hvalue.unique hvalue').1
      cases herror.symm.trans htruth
  | member hvalue =>
    cases hreaches
    cases hpart
    exact ⟨_, _, hvalue⟩
  | index hv _ hw =>
    cases hreaches with
    | indexObject =>
      cases hpart
      exact ⟨_, _, hv⟩
    | key hv' =>
      cases hpart
      cases (hv.unique hv').2
      exact ⟨_, _, hw⟩
  | function hfails =>
    cases hreaches with
    | argument hfunction => exact absurd hfails hfunction.not_fails
  | call hfunction hvalues =>
    obtain ⟨t₂, value, t₃, hreaches', hvalue⟩ := reaches_argument hfunction hvalues hpart
    cases hreaches.unique hreaches'
    exact ⟨value, t₃, hvalue⟩

/-- A node comes to a part only after those in front of it that it came to have returned. -/
theorem returns_of_lt (hij : i < j) (hi : Reaches host e t i t₁) (hj : Reaches host e t j t₂)
    (hpart : e.parts[i]? = some part) : ∃ value t', (evaluate host part).Returns t₁ value t' := by
  cases hj with
  | operand | left | condition | memberObject | indexObject => exact absurd hij (Nat.not_lt_zero i)
  | right hvalue =>
    obtain rfl := Nat.lt_one_iff.1 hij
    cases hi
    cases hpart
    exact ⟨_, _, hvalue⟩
  | thenBranch hvalue =>
    obtain rfl := Nat.lt_one_iff.1 hij
    cases hi
    cases hpart
    exact ⟨_, _, hvalue⟩
  | elseBranch hvalue htruth =>
    cases hi with
    | condition =>
      cases hpart
      exact ⟨_, _, hvalue⟩
    | thenBranch hvalue' htruth' =>
      cases (hvalue.unique hvalue').1
      cases htruth.symm.trans htruth'
    | elseBranch => exact absurd hij (Nat.lt_irrefl 2)
  | key hvalue =>
    obtain rfl := Nat.lt_one_iff.1 hij
    cases hi
    cases hpart
    exact ⟨_, _, hvalue⟩
  | @argument _ _ arguments _ _ _ _ _ _ hfunction hbefore =>
    have htake : (arguments.take j)[i]? = some part := by rwa [List.getElem?_take_of_lt hij]
    obtain ⟨_, t₃, value, t₄, hfront, hvalue⟩ := returns_item hbefore htake
    rw [List.take_take, Nat.min_eq_left (Nat.le_of_lt hij)] at hfront
    cases hi.unique (.argument hfunction hfront)
    exact ⟨value, t₄, hvalue⟩

/-- If a part fails that a node comes to, all other parts that it came to have returned. -/
theorem returns_of_other (hi : Reaches host e t i t₁) (hpart : e.parts[i]? = some part)
    (hfails : (evaluate host part).Fails t₁ failure t') {other : Expr}
    (hj : Reaches host e t j t₂) (hother : e.parts[j]? = some other) (hne : j ≠ i) :
    ∃ value t₃, (evaluate host other).Returns t₂ value t₃ := by
  rcases Nat.lt_or_gt_of_ne hne with hlt | hlt
  · exact returns_of_lt hlt hj hi hother
  · obtain ⟨value, t₃, hvalue⟩ := returns_of_lt hlt hi hj hpart
    exact absurd hfails hvalue.not_fails

/-- All nodes have returned that the evaluation of a tree has come to that returned. -/
theorem returns_of_comes {value : Value} {place : List Nat} {node : Expr}
    (h : (evaluate host e).Returns t value t') (hcomes : Comes host e t place t₁)
    (hnode : e.at? place = some node) : ∃ value t₂, (evaluate host node).Returns t₁ value t₂ := by
  rcases returns_or_fails (evaluate host node) t₁ with hreturns | ⟨failure, t₂, hfails⟩
  · exact hreturns
  · exact absurd (fails_of_comes hcomes hnode hfails) h.not_fails

/-! ## The place where an evaluation fails -/

/-- The evaluation of the tree fails first in the node at the place. -/
structure FirstFailure (host : Host) (e : Expr) (t : Trace) (failure : Failure) (t' : Trace)
    (place : List Nat) : Prop where
  /-- The evaluation comes to the node, which fails by itself. -/
  raised : ∃ node t₁, e.at? place = some node ∧ Comes host e t place t₁ ∧
    Raises host node t₁ failure t'
  /-- The nodes around it fail as it does: with the same failure, and the host is asked for nothing
  any more. -/
  passed_on : ∀ outer node t₁, outer <+: place → e.at? outer = some node →
    Comes host e t outer t₁ → (evaluate host node).Fails t₁ failure t'
  /-- Every other node that the evaluation comes to has returned. -/
  others_return : ∀ other node t₁, ¬ other <+: place → e.at? other = some node →
    Comes host e t other t₁ → ∃ value t₂, (evaluate host node).Returns t₁ value t₂

theorem FirstFailure.here (h : Raises host e t failure t') :
    FirstFailure host e t failure t' [] where
  raised := ⟨e, t, rfl, .here, h⟩
  passed_on outer node t₁ houter hnode hcomes := by
    cases List.prefix_nil.1 houter
    cases hcomes
    cases hnode
    exact fails_iff_raises_or_part.2 (.inl h)
  others_return other node t₁ hother hnode hcomes := by
    cases hcomes with
    | here => exact absurd List.nil_prefix hother
    | inside hreaches hpart hcomes =>
      obtain ⟨part, hpart', hnode⟩ := Expr.at?_cons_eq_some.1 hnode
      cases hpart.symm.trans hpart'
      obtain ⟨value, t₂, hvalue⟩ := returns_of_raises h hreaches hpart
      exact returns_of_comes hvalue hcomes hnode

theorem FirstFailure.inside {place : List Nat} (hreaches : Reaches host e t i t₁)
    (hpart : e.parts[i]? = some part) (h : FirstFailure host part t₁ failure t' place) :
    FirstFailure host e t failure t' (i :: place) := by
  obtain ⟨⟨node, t₂, hnode, hcomes, hraises⟩, hpassed, hothers⟩ := h
  have hfails : (evaluate host part).Fails t₁ failure t' :=
    hpassed [] part t₁ List.nil_prefix rfl .here
  refine ⟨⟨node, t₂, Expr.at?_cons_eq_some.2 ⟨part, hpart, hnode⟩,
    .inside hreaches hpart hcomes, hraises⟩, fun outer node t₃ houter hnode hcomes => ?_,
    fun other node t₃ hother hnode hcomes => ?_⟩
  · cases hcomes with
    | here =>
      cases hnode
      exact fails_iff_raises_or_part.2 (.inr ⟨part, t₁, hreaches.enters hpart, hfails⟩)
    | inside hreaches' hpart' hcomes =>
      obtain ⟨rfl, hinner⟩ := List.cons_prefix_cons.1 houter
      obtain ⟨part', hpart'', hnode⟩ := Expr.at?_cons_eq_some.1 hnode
      cases hpart.symm.trans hpart'
      cases hpart.symm.trans hpart''
      cases hreaches.unique hreaches'
      exact hpassed _ node t₃ hinner hnode hcomes
  · cases hcomes with
    | here => exact absurd List.nil_prefix hother
    | @inside _ part' j _ _ _ _ hreaches' hpart' hcomes =>
      obtain ⟨_, hpart'', hnode⟩ := Expr.at?_cons_eq_some.1 hnode
      cases hpart'.symm.trans hpart''
      by_cases hji : j = i
      · subst hji
        cases hpart.symm.trans hpart'
        cases hreaches.unique hreaches'
        exact hothers _ node t₃ (fun h => hother (List.cons_prefix_cons.2 ⟨rfl, h⟩)) hnode hcomes
      · obtain ⟨value, t₄, hvalue⟩ := returns_of_other hreaches hpart hfails hreaches' hpart' hji
        exact returns_of_comes hvalue hcomes hnode

/-- Where an evaluation comes to a node that fails by itself, it fails first. -/
theorem firstFailure_of_raises {place : List Nat} {node : Expr} (hcomes : Comes host e t place t₁)
    (hnode : e.at? place = some node) (hraises : Raises host node t₁ failure t') :
    FirstFailure host e t failure t' place := by
  induction hcomes with
  | here =>
    cases hnode
    exact .here hraises
  | inside hreaches hpart _ ih =>
    obtain ⟨_, hpart', hnode⟩ := Expr.at?_cons_eq_some.1 hnode
    cases hpart.symm.trans hpart'
    exact .inside hreaches hpart (ih hnode hraises)

theorem FirstFailure.fails {place : List Nat} (h : FirstFailure host e t failure t' place) :
    (evaluate host e).Fails t failure t' :=
  h.passed_on [] e t List.nil_prefix rfl .here

theorem exists_firstFailure (h : (evaluate host e).Fails t failure t') :
    ∃ place, FirstFailure host e t failure t' place := by
  obtain ⟨node, t₁, hvisits, hraises⟩ := fails_iff_raises.1 h
  clear h
  induction hvisits with
  | here => exact ⟨[], .here hraises⟩
  | inside henters _ ih =>
    obtain ⟨i, hreaches, hpart⟩ := henters.reaches
    obtain ⟨place, hplace⟩ := ih hraises
    exact ⟨i :: place, .inside hreaches hpart hplace⟩

/-- There are no two places where an evaluation fails first. -/
theorem FirstFailure.place_prefix {failure' : Failure} {t'' : Trace} {place place' : List Nat}
    (h : FirstFailure host e t failure t' place) (h' : FirstFailure host e t failure' t'' place') :
    place' <+: place := by
  obtain ⟨node, t₁, hnode, hcomes, hraises⟩ := h'.raised
  by_contra hother
  obtain ⟨value, t₂, hvalue⟩ := h.others_return place' node t₁ hother hnode hcomes
  exact hvalue.not_fails (fails_iff_raises_or_part.2 (.inl hraises))

end

/-! ## Reported once and unchanged -/

/-- The failure is the one around the cause, whose text it shows; if the cause has no text, it is
what asking for that text fails with. -/
def Wraps (outer : Failure → Failure) (cause failure : Failure) : Prop :=
  cause.textFailure? = none ∧ failure = outer cause ∨ cause.textFailure? = some failure

/-- A failure of the engine's own is passed on as it is, and any other one is wrapped. -/
def Relays (outer : Failure → Failure) (cause failure : Failure) : Prop :=
  cause.isEvaluation = true ∧ failure = cause ∨
    cause.isEvaluation = false ∧ Wraps outer cause failure

theorem eq_relayed_iff {outer : Failure → Failure} {cause failure : Failure} :
    (failure = if cause.isEvaluation then cause else .wrap outer cause) ↔
      Relays outer cause failure := by
  cases h : cause.isEvaluation <;> simp [Relays, Wraps, h, Failure.eq_wrap_iff]

/-- A failure of an evaluation is reported once and unchanged. -/
structure ReportsOnce (host : Host) (e : Expr) (t : Trace) : Prop where
  /-- The evaluation fails exactly where a node fails first, and there is one place only where this
  is so. -/
  fails_iff : ∀ failure t', (evaluate host e).Fails t failure t' ↔
    ∃! place, FirstFailure host e t failure t' place
  /-- Wherever the evaluation comes to a node that fails by itself, it fails first there. -/
  uncaught : ∀ place node t₁ failure t', e.at? place = some node → Comes host e t place t₁ →
    Raises host node t₁ failure t' → FirstFailure host e t failure t' place
  /-- A variable fails if its look-up does: what this fails with is passed on, or wrapped in one
  failure that names the variable. -/
  variable_iff : ∀ name t₁ failure t', Raises host (.identifier name) t₁ failure t' ↔
    ∃ cause, host.resolveVariable t₁ name = .error cause ∧
      Relays (.resolution name) cause failure ∧ t' = t₁ ++ [.variableLookup name (.error cause)]
  /-- A call fails by itself if the look-up of its function does, and what this fails with is passed
  on, or wrapped in one failure that names the call; if the function is not known; or if the function
  fails once all arguments have returned, and whatever it failed with is wrapped in one failure that
  names the call. -/
  call_iff : ∀ qualifier name arguments t₁ failure t',
    Raises host (.call qualifier name arguments) t₁ failure t' ↔
      (∃ cause, host.resolveFunction t₁ qualifier name = .error cause ∧
        Relays (.invocation qualifier name) cause failure ∧
        t' = t₁ ++ [.functionLookup qualifier name (.error cause)]) ∨
      (host.resolveFunction t₁ qualifier name = .ok none ∧
        failure = .unknownFunction qualifier name ∧
        t' = t₁ ++ [.functionLookup qualifier name (.ok false)]) ∨
      ∃ function values t₂ cause, host.resolveFunction t₁ qualifier name = .ok (some function) ∧
        (arguments.mapM (evaluate host)).Returns
          (t₁ ++ [.functionLookup qualifier name (.ok true)]) values t₂ ∧
        function t₂ values = .error cause ∧ Wraps (.invocation qualifier name) cause failure ∧
        t' = t₂ ++ [.call qualifier name values (.error cause)]
  /-- If an argument of a call fails, the call fails as the argument does, and so does the
  evaluation. -/
  argument : ∀ place qualifier name arguments i argument t₁ t₂ failure t',
    e.at? place = some (.call qualifier name arguments) → Comes host e t place t₁ →
    arguments[i]? = some argument → Reaches host (.call qualifier name arguments) t₁ i t₂ →
    (evaluate host argument).Fails t₂ failure t' →
    (evaluate host (.call qualifier name arguments)).Fails t₁ failure t' ∧
      (evaluate host e).Fails t failure t'

/-- **A failure is reported once and unchanged, however deep it occurs**, and what the host fails
with is wrapped once if it has a text.  This holds of every evaluation of every tree, with every
host and every past. -/
theorem evaluate_reportsOnce (host : Host) (e : Expr) (t : Trace) : ReportsOnce host e t where
  fails_iff failure t' := by
    constructor
    · intro h
      obtain ⟨place, hplace⟩ := exists_firstFailure h
      refine ⟨place, hplace, fun place' hplace' => ?_⟩
      exact (hplace.place_prefix hplace').eq_of_length_le (hplace'.place_prefix hplace).length_le
    · rintro ⟨place, hplace, -⟩
      exact hplace.fails
  uncaught _ _ _ _ _ hnode hcomes hraises := firstFailure_of_raises hcomes hnode hraises
  variable_iff name t₁ failure t' := by
    simp only [← eq_relayed_iff]
    refine Iff.trans ⟨fun h => ?_, .identifier⟩ fails_askVariable
    cases h with
    | identifier h => exact h
  call_iff qualifier name arguments t₁ failure t' := by
    simp only [← eq_relayed_iff, Wraps, ← Failure.eq_wrap_iff]
    constructor
    · intro h
      cases h with
      | function h => exact (fails_askFunction.1 h).imp_right .inl
      | call hfunction hvalues hfails =>
        obtain ⟨hfound, rfl⟩ := returns_askFunction.1 hfunction
        obtain ⟨cause, hcause, rfl, rfl⟩ := fails_call.1 hfails
        exact .inr (.inr ⟨_, _, _, cause, hfound, hvalues, hcause, rfl, rfl⟩)
    · rintro (h | h | ⟨function, values, t₂, cause, hfound, hvalues, hcause, rfl, rfl⟩)
      · exact .function (fails_askFunction.2 (.inl h))
      · exact .function (fails_askFunction.2 (.inr h))
      · exact .call (returns_askFunction.2 ⟨hfound, rfl⟩) hvalues
          (fails_call.2 ⟨cause, hcause, rfl, rfl⟩)
  argument _ _ _ _ _ _ _ _ _ _ hnode hcomes hargument hreaches hfails := by
    have hcall := fails_of_comes (.inside hreaches hargument .here)
      (Expr.at?_cons_eq_some.2 ⟨_, hargument, rfl⟩) hfails
    exact ⟨hcall, fails_of_comes hcomes hnode hcall⟩

/-- A function fails with what has no text.  This is not the cause of a failure that names the call:
what asking for the text fails with comes out of the operator around the call. -/
theorem call_not_wrapped_textless :
    let raised := Failure.host "ValueError".toList "integer with too many digits".toList
    let cause := Failure.textless "KeyError".toList raised
    let host : Host := ⟨fun _ _ => .ok .undefined, fun _ _ _ => .ok (some fun _ _ => .error cause)⟩
    let e := Expr.unary .negate (.call none ['f'] [])
    (evaluate host e).Fails [] raised
        [.functionLookup none ['f'] (.ok true), .call none ['f'] [] (.error cause)] ∧
      ∀ qualifier name, raised ≠ .invocation qualifier name cause := by
  intro raised cause host e
  refine ⟨?_, nofun⟩
  rw [evaluate_unary, evaluate_call]
  rfl

end ExprLang
