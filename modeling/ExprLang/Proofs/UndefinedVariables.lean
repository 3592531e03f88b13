import ExprLang.Host.Variables
import ExprLang.Library.Basic
import ExprLang.Proofs.CallOrder
import ExprLang.Proofs.PairedRuns

/-!
# Variables that a tree sees

A tree sees nothing of the variables but the values of the names that occur in it, and a name that
is missing, one that holds `undefined` and one that holds null look the same to it.  If two sets of
variables look the same to a tree in this sense, its evaluations come to the same value or to the
same failure after the same exchange with the host.  The functions may have a memory, as long as it
does not hold whether a variable was undefined or null.

* `Variables.seen` — what a tree sees of a name.
* `Trace.Indistinct` — pasts that differ in undefined and null variables only.
* `HostFunction.IgnoresUndefined` — functions that do not tell such pasts apart, with
  `IgnoresUndefined.of_calls` for those that remember nothing but the calls.
* `evaluate_seen` — evaluations against variables that look the same.
-/

namespace ExprLang

open Evaluation

/-! ## What a tree sees -/

/-- The value of a variable, where `undefined` stands for null. -/
def Value.settled : Value → Value
  | .undefined => .null
  | value => value

/-- What a tree sees of a name: null if the name is missing or not defined. -/
def Variables.seen (known : Variables) (name : Text) : Value :=
  ((known.value? name).getD .undefined).settled

/-- The exchange without the difference of undefined and null in the value of a variable. -/
def Event.settled : Event → Event
  | .variableLookup name answer => .variableLookup name (answer.map Value.settled)
  | event => event

/-- The two traces hold the same look-ups and the same calls in the same order, but a variable that
is undefined in one of them may be null in the other one. -/
def Trace.Indistinct (t t' : Trace) : Prop :=
  t.map Event.settled = t'.map Event.settled

/-- The function may remember all that happened but whether a variable was undefined or null. -/
def HostFunction.IgnoresUndefined (f : HostFunction) : Prop :=
  ∀ ⦃t t' : Trace⦄, Trace.Indistinct t t' → f t = f t'

section

variable {t t' : Trace} {event : Event}

theorem Event.isCall_settled (event : Event) : event.settled.isCall = event.isCall := by
  cases event <;> rfl

theorem Event.settled_of_isCall (h : event.isCall = true) : event.settled = event := by
  cases event with
  | call => rfl
  | variableLookup | functionLookup => cases h

/-- Calls stay as they are, with their arguments and outcomes. -/
theorem filter_isCall_settled (t : Trace) :
    (t.map Event.settled).filter Event.isCall = t.filter Event.isCall := by
  induction t with
  | nil => rfl
  | cons event t ih =>
    rw [List.map_cons, List.filter_cons, List.filter_cons, ih, event.isCall_settled]
    split
    · rename_i hcall
      rw [Event.settled_of_isCall hcall]
    · rfl

theorem Trace.Indistinct.calls_eq (h : Trace.Indistinct t t') :
    t.filter Event.isCall = t'.filter Event.isCall := by
  rw [← filter_isCall_settled t, h, filter_isCall_settled]

/-! ## Functions -/

namespace HostFunction

/-- Functions that remember nothing but the calls. -/
theorem IgnoresUndefined.of_calls {f : HostFunction}
    (h : ∀ t t' : Trace, t.filter Event.isCall = t'.filter Event.isCall → f t = f t') :
    f.IgnoresUndefined :=
  fun t t' htrace => h t t' htrace.calls_eq

theorem ignoresUndefined_pure (f : List Value → Except Failure Value) :
    (HostFunction.pure f).IgnoresUndefined :=
  .of_calls fun _ _ _ => rfl

end HostFunction

theorem Library.ignoresUndefined_functions (qualifier : Option Text) :
    ∀ definition ∈ Library.functions qualifier, definition.implementation.IgnoresUndefined := by
  simp only [functions, textFunctions, collectionFunctions, markupFunctions, define,
    List.forall_mem_append, List.forall_mem_cons, List.not_mem_nil, false_imp_iff, implies_true,
    HostFunction.ignoresUndefined_pure, and_self]

theorem Registry.ignoresUndefined_builtin :
    ∀ definition ∈ Registry.builtin.definitions, definition.implementation.IgnoresUndefined :=
  fun definition h =>
    Library.ignoresUndefined_functions _ definition (mem_functions_of_mem_builtin h)

end

/-! ## Two runs -/

section

variable {known known' : Variables} {registry : Registry} {e : Expr}

/-- A look-up records what it finds and comes to what a tree sees. -/
theorem askVariable_ofVariables (known : Variables) (registry : Registry) (name : Text) :
    (Host.ofVariables known registry).askVariable name = (do
      record (.variableLookup name (.ok ((known.value? name).getD .undefined)))
      return known.seen name) := by
  unfold Host.askVariable Variables.seen Host.ofVariables
  dsimp only
  cases (known.value? name).getD .undefined with
  | undefined => rfl
  | _ => rfl

theorem related_seen (registry : Registry) {name : Text} (h : known.seen name = known'.seen name) :
    Related Trace.Indistinct Eq ((Host.ofVariables known registry).askVariable name)
      ((Host.ofVariables known' registry).askVariable name) := by
  rw [askVariable_ofVariables, askVariable_ofVariables]
  refine .bind (.record ?_) fun _ _ _ => .pure h
  exact congrArg (fun v => Event.variableLookup name (.ok v)) h

theorem related_function
    (h : ∀ definition ∈ registry.definitions, definition.implementation.IgnoresUndefined)
    (qualifier : Option Text) (name : Text) :
    Related Trace.Indistinct (fun f g => f = g ∧ f.IgnoresUndefined)
      ((Host.ofVariables known registry).askFunction qualifier name)
      ((Host.ofVariables known' registry).askFunction qualifier name) := by
  refine .bind .trace fun _ _ _ => ?_
  refine .bind (.record rfl) fun _ _ _ => ?_
  cases hfound : registry.find? qualifier name with
  | none =>
    simp only [Host.ofVariables, Registry.lookup?, hfound]
    exact .throw _
  | some definition =>
    simp only [Host.ofVariables, Registry.lookup?, hfound]
    exact .pure ⟨rfl, h definition (List.mem_of_find?_eq_some hfound)⟩

theorem related_indistinct_call {f : HostFunction} (h : f.IgnoresUndefined)
    (qualifier : Option Text) (name : Text) (arguments : List Value) :
    Related Trace.Indistinct Eq (Host.call qualifier name f arguments)
      (Host.call qualifier name f arguments) := by
  refine .bind .trace fun t t' htrace => ?_
  rw [h htrace]
  refine .bind (.record rfl) fun _ _ _ => ?_
  cases f t' arguments with
  | ok value => exact .pure rfl
  | error failure => exact .throw _

/-- **Undefined is null, and other variables do not matter.**  If two sets of variables look the
same at the names that occur in a tree, then its evaluations with the same functions come to the
same value or the same failure.  They make the same look-ups and the same calls, with the same
arguments and outcomes. -/
theorem evaluate_seen
    (hfunctions : ∀ definition ∈ registry.definitions, definition.implementation.IgnoresUndefined)
    (hseen : ∀ name ∈ e.names, known.seen name = known'.seen name) (t : Trace) :
    let run := (evaluate (.ofVariables known registry) e).run t
    let run' := (evaluate (.ofVariables known' registry) e).run t
    run.1 = run'.1 ∧ run.2.filter Event.isCall = run'.2.filter Event.isCall ∧
      Trace.Indistinct run.2 run'.2 := by
  have hrelated : Related Trace.Indistinct Eq (evaluate (.ofVariables known registry) e)
      (evaluate (.ofVariables known' registry) e) := by
    refine related_evaluate Value.congruence_eq (fun name hname => ?_)
      (related_function hfunctions) ?_
    · exact related_seen registry (hseen name hname)
    · rintro qualifier name f g vs ws ⟨rfl, hf⟩ hvalues
      rw [List.forall₂_eq_eq_eq] at hvalues
      rw [hvalues]
      exact related_indistinct_call hf qualifier name ws
  obtain ⟨hresult, htrace⟩ := hrelated (t := t) rfl
  exact ⟨outcomes_eq_iff.1 hresult, htrace.calls_eq, htrace⟩

/-- A variable that is missing or `undefined`, one that is null or missing, and one that the tree
does not ask for. -/
theorem evaluate_seen_missing :
    let known : Variables := [("y".toList, .null), ("z".toList, .long 1)]
    let known' : Variables := [("x".toList, .undefined), ("z".toList, .boolean true)]
    let e := Expr.binary .join
      (.call (some "fn".toList) "length".toList [.identifier "x".toList])
      (.identifier "y".toList)
    let run := (evaluate (.ofVariables known .builtin) e).run []
    let run' := (evaluate (.ofVariables known' .builtin) e).run []
    (∀ definition ∈ Registry.builtin.definitions, definition.implementation.IgnoresUndefined) ∧
      (∀ name ∈ e.names, known.seen name = known'.seen name) ∧
      run.1 = run'.1 ∧ run.2.filter Event.isCall = run'.2.filter Event.isCall ∧
      Trace.Indistinct run.2 run'.2 := by
  intro known known' e run run'
  have hseen : ∀ name ∈ e.names, known.seen name = known'.seen name := by
    intro name hname
    have hnames : name = "x".toList ∨ name = "y".toList := by
      simpa [e, Expr.names, Expr.namesAll] using hname
    rcases hnames with rfl | rfl
    · rfl
    · rfl
  exact ⟨Registry.ignoresUndefined_builtin, hseen,
    evaluate_seen Registry.ignoresUndefined_builtin hseen []⟩

end

end ExprLang
