import ExprLang.Value.Text

/-!
# Hosts

A host supplies the names of an evaluation: it tells the value of a variable and the function that
a name stands for.  What a host answers may depend on all that happened before, which is the trace
of its answers so far, earliest first.  So a host is a function of the trace, and one without a
memory ignores it.

* `Evaluation` — computations that fail or yield a value, and extend the trace in either case.
-/

namespace ExprLang

/-- An exchange with the host. -/
inductive Event where
  | variableLookup (name : Text) (answer : Except Failure Value)
  | functionLookup (qualifier : Option Text) (name : Text) (found : Except Failure Bool)
  | call (qualifier : Option Text) (name : Text) (arguments : List Value)
      (outcome : Except Failure Value)

abbrev Trace := List Event

/-- A function of the host, applied to the trace so far and to the arguments. -/
abbrev HostFunction := Trace → List Value → Except Failure Value

structure Host where
  /-- The value of a variable, or `undefined` if the name is not known. -/
  resolveVariable : Trace → Text → Except Failure Value
  /-- The function of a qualifier and a name, or none if it is not known. -/
  resolveFunction : Trace → Option Text → Text → Except Failure (Option HostFunction)

/-- A function whose outcome depends on its arguments alone. -/
def HostFunction.pure (f : List Value → Except Failure Value) : HostFunction :=
  fun _ arguments => f arguments

namespace Event

/-- The line that a log shows for the event, if it shows one.  What has no text is not logged. -/
def logLine? (wording : Wording) : Event → Option Text
  | .variableLookup name (.ok .undefined) =>
    some ("Variable '".toList ++ name ++ "' is undefined; evaluating as null".toList)
  | .call qualifier name _ (.error failure) =>
    (failure.text wording).toOption.map
      ("Function ".toList ++ qualifiedName qualifier name ++ " raised ".toList
        ++ failure.typeName ++ ": ".toList ++ ·)
  | _ => none

end Event

/-- A computation that exchanges events with a host. -/
abbrev Evaluation (α : Type) := ExceptT Failure (StateM Trace) α

namespace Evaluation

def ofResult {α : Type} : Except Failure α → Evaluation α
  | .ok a => pure a
  | .error failure => throw failure

/-- The trace up to here. -/
def trace : Evaluation Trace :=
  fun trace => (.ok trace, trace)

def record (event : Event) : Evaluation Unit :=
  fun trace => (.ok (), trace ++ [event])

/-- The result and the trace of a computation that starts without a past. -/
def start {α : Type} (computation : Evaluation α) : Except Failure α × Trace :=
  computation.run []

end Evaluation

namespace Host

/-- The value of a variable; one that is not known is null. -/
def askVariable (host : Host) (name : Text) : Evaluation Value := do
  let answer := host.resolveVariable (← Evaluation.trace) name
  Evaluation.record (.variableLookup name answer)
  match answer with
  | .ok .undefined => return .null
  | .ok value => return value
  | .error failure =>
    throw (if failure.isEvaluation then failure else .wrap (.resolution name) failure)

/-- The function of a name, which has to be known. -/
def askFunction (host : Host) (qualifier : Option Text) (name : Text) : Evaluation HostFunction := do
  let answer := host.resolveFunction (← Evaluation.trace) qualifier name
  Evaluation.record (.functionLookup qualifier name (answer.map (·.isSome)))
  match answer with
  | .ok (some function) => return function
  | .ok none => throw (.unknownFunction qualifier name)
  | .error failure =>
    throw (if failure.isEvaluation then failure else .wrap (.invocation qualifier name) failure)

/-- The outcome of a call; whatever the function fails with is a failure of the call. -/
def call (qualifier : Option Text) (name : Text) (function : HostFunction)
    (arguments : List Value) : Evaluation Value := do
  let outcome := function (← Evaluation.trace) arguments
  Evaluation.record (.call qualifier name arguments outcome)
  match outcome with
  | .ok value => return value
  | .error failure => throw (.wrap (.invocation qualifier name) failure)

end Host

end ExprLang
