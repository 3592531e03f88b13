import ExprLang.Number.Decimal
import ExprLang.Text.Quoted

/-!
# Failures of an evaluation

The causes for which an evaluation ends without a value.  The engine's own failures are told apart
from those that pass through it: `isEvaluation` holds of the former.

A failure that is raised because of another one shows the text of its cause in its own.  A failure
of the host's own may have no text: asking for it fails in turn, and then that failure comes in
place of the one that was to be raised.

* `Failure.typeName`, `Failure.text` — the name of the kind of failure, and its wording.
* `Failure.textFailure?` — what asking for the text fails with; `textFailure?_eq` and `exists_text`
  relate it to the wording.
* `Failure.wrap` — the failure around a cause.
-/

namespace ExprLang

/-- A function's name as it is written in an expression. -/
def qualifiedName (qualifier : Option Text) (name : Text) : Text :=
  match qualifier with
  | some (c :: rest) => c :: rest ++ ':' :: name
  | _ => name

/-- Why a value does not have the type that an operator needs. -/
inductive CoercionError where
  | stringToBoolean (text : Text)
  | typeToBoolean (typeName : Text)
  | doubleToLong (x : Double)
  | stringToLong (text : Text)
  | typeToLong (typeName : Text)
  | longToDouble (bits : Nat)
  | stringToDouble (text : Text)
  | typeToDouble (typeName : Text)
  | longToString (bits : Nat)
  | negate (typeName : Text)
  | order (left right : Text)
  | wildcard (left right : Text)
  | host (message : Text)
  deriving DecidableEq, Repr

def CoercionError.message : CoercionError → Text
  | .stringToBoolean text =>
    "Cannot coerce string ".toList ++ Text.quoted text ++ " to boolean".toList
  | .typeToBoolean name => "Cannot coerce ".toList ++ name ++ " to boolean".toList
  | .doubleToLong x => "Cannot coerce ".toList ++ x.toText ++ " to long".toList
  | .stringToLong text =>
    "Cannot coerce string ".toList ++ (Text.quoted text).take 40 ++ " to long".toList
  | .typeToLong name => "Cannot coerce ".toList ++ name ++ " to long".toList
  | .longToDouble bits =>
    "Integer with ".toList ++ Text.ofNat bits ++ " bits is too large for a double".toList
  | .stringToDouble text =>
    "Cannot coerce string ".toList ++ Text.quoted text ++ " to double".toList
  | .typeToDouble name => "Cannot coerce ".toList ++ name ++ " to double".toList
  | .longToString bits =>
    "Integer with ".toList ++ Text.ofNat bits ++ " bits is too large to convert to string".toList
  | .negate name => "Cannot negate ".toList ++ name
  | .order left right => "Cannot order ".toList ++ left ++ " and ".toList ++ right
  | .wildcard left right => "Cannot match ".toList ++ left ++ " against ".toList ++ right
  | .host message => message

/-- Why a member or an index cannot be looked up. -/
inductive AccessError where
  | scalarBase (key typeName : Text)
  | invalidKey (key typeName : Text)
  | notAnIndex (key typeName : Text)
  | hiddenMember (name typeName : Text)
  | missingMember (name typeName : Text)
  deriving DecidableEq, Repr

def AccessError.message : AccessError → Text
  | .scalarBase key type | .hiddenMember key type =>
    "Cannot access member '".toList ++ key ++ "' of ".toList ++ type
  | .invalidKey key type => "Invalid key ".toList ++ key ++ " for ".toList ++ type
  | .notAnIndex key type =>
    "Cannot use '".toList ++ key ++ "' as an index into ".toList ++ type
  | .missingMember name type => type ++ " has no member '".toList ++ name ++ "'".toList

inductive Failure where
  | coercion (error : CoercionError)
  | access (error : AccessError)
  /-- Reading a member has failed. -/
  | unreadableMember (name typeName : Text) (cause : Failure)
  | divisionByZero
  | moduloByZero
  | unknownFunction (qualifier : Option Text) (name : Text)
  | invocation (qualifier : Option Text) (name : Text) (cause : Failure)
  | resolution (name : Text) (cause : Failure)
  /-- An operator that no parser builds. -/
  | unknownOperator (symbol : Text)
  | unknownUnaryOperator (symbol : Text)
  /-- A tree node of a type that no parser builds. -/
  | unknownNode (typeName : Text)
  /-- The remainder of an infinite dividend. -/
  | infiniteDividend
  /-- A container that holds an integer with too many digits has no text. -/
  | textlessContainer (typeName : Text)
  /-- A value that holds an integer with too many digits cannot be quoted. -/
  | unquotable
  | wrongArgumentCount (function : Text) (given : Nat)
  | noItems (typeName : Text)
  /-- A failure of the host's own. -/
  | host (typeName text : Text)
  /-- A failure of the host's own that has no text: asking for it raises another failure. -/
  | textless (typeName : Text) (raised : Failure)
  deriving DecidableEq, Repr

/-- The wordings of failures that the language underneath raises, which words them as it likes. -/
structure Wording where
  infiniteDividend : Text
  textlessContainer : (typeName : Text) → Text
  unquotable : Text
  wrongArgumentCount : (function : Text) → (given : Nat) → Text
  noItems : (typeName : Text) → Text

namespace Failure

/-- Whether the failure is one of the engine's own. -/
def isEvaluation : Failure → Bool
  | .coercion _ | .access _ | .unreadableMember _ _ _ | .divisionByZero | .moduloByZero
  | .unknownFunction _ _ | .invocation _ _ _ | .resolution _ _ => true
  | _ => false

def typeName : Failure → Text
  | .coercion _ => "TypeCoercionError".toList
  | .access _ | .unreadableMember _ _ _ => "InvalidAccessError".toList
  | .divisionByZero | .moduloByZero => "ArithmeticEvaluationError".toList
  | .unknownFunction _ _ => "UnknownFunctionError".toList
  | .invocation _ _ _ => "FunctionInvocationError".toList
  | .resolution _ _ => "ResolverError".toList
  | .unknownOperator _ | .unknownUnaryOperator _ | .infiniteDividend | .unquotable =>
    "ValueError".toList
  | .unknownNode _ | .wrongArgumentCount _ _ | .noItems _ => "TypeError".toList
  | .textlessContainer _ => "AttributeError".toList
  | .host name _ | .textless name _ => name

/-! ## Texts -/

/-- What asking for the text of a failure fails with, if it does.  The text of a failure holds that
of its cause. -/
def textFailure? : Failure → Option Failure
  | .unreadableMember _ _ cause | .invocation _ _ cause | .resolution _ cause => cause.textFailure?
  | .textless _ raised => some raised
  | _ => none

def text (wording : Wording) : Failure → Except Failure Text
  | .coercion error => .ok error.message
  | .access error => .ok error.message
  | .unreadableMember name type cause =>
    (cause.text wording).map
      ("Error reading member '".toList ++ name ++ "' of ".toList ++ type ++ ": ".toList ++ ·)
  | .divisionByZero => .ok "Division by zero".toList
  | .moduloByZero => .ok "Modulo by zero".toList
  | .unknownFunction qualifier name =>
    .ok ("Unknown function: ".toList ++ qualifiedName qualifier name)
  | .invocation qualifier name cause =>
    (cause.text wording).map
      ("Error calling ".toList ++ qualifiedName qualifier name ++ ": ".toList ++ ·)
  | .resolution name cause =>
    (cause.text wording).map ("Error resolving '".toList ++ name ++ "': ".toList ++ ·)
  | .unknownOperator symbol => .ok ("Unknown operator: ".toList ++ symbol)
  | .unknownUnaryOperator symbol => .ok ("Unknown unary operator: ".toList ++ symbol)
  | .unknownNode name => .ok ("Unknown node type: ".toList ++ name)
  | .infiniteDividend => .ok wording.infiniteDividend
  | .textlessContainer type => .ok (wording.textlessContainer type)
  | .unquotable => .ok wording.unquotable
  | .wrongArgumentCount function given => .ok (wording.wrongArgumentCount function given)
  | .noItems type => .ok (wording.noItems type)
  | .host _ text => .ok text
  | .textless _ raised => .error raised

theorem textFailure?_eq (wording : Wording) (failure : Failure) :
    failure.textFailure? = match failure.text wording with
      | .ok _ => none
      | .error raised => some raised := by
  induction failure with
  | unreadableMember _ _ cause ih | invocation _ _ cause ih | resolution _ cause ih =>
    rw [textFailure?, ih, text]
    cases cause.text wording <;> rfl
  | _ => rfl

/-- Whether a failure has a text does not depend on how others are worded. -/
theorem exists_text {failure : Failure} (h : failure.textFailure? = none) (wording : Wording) :
    ∃ text, failure.text wording = .ok text := by
  rw [textFailure?_eq wording] at h
  cases htext : failure.text wording with
  | ok text => exact ⟨text, rfl⟩
  | error raised => simp [htext] at h

/-! ## Causes -/

/-- The failure around a cause.  Its text is made when it is raised: if the cause has none, what
asking for it fails with comes instead. -/
def wrap (outer : Failure → Failure) (cause : Failure) : Failure :=
  cause.textFailure?.getD (outer cause)

theorem eq_wrap_iff {outer : Failure → Failure} {cause failure : Failure} :
    failure = wrap outer cause ↔
      cause.textFailure? = none ∧ failure = outer cause ∨ cause.textFailure? = some failure := by
  rw [wrap]
  cases cause.textFailure? with
  | none => simp
  | some raised => simp [eq_comm]

/-- A coercion's answer as an answer of the evaluation. -/
def ofCoercion {α : Type} (result : Except CoercionError α) : Except Failure α :=
  result.mapError .coercion

end Failure

end ExprLang
