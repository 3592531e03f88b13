import ExprLang.Value.Basic
import ExprLang.Unicode.LetterCase

/-!
# Coercions

Null and the empty text coerce to false, to `0` and to `0.0`.  Numbers are true unless they are
zero, and the words `true` and `false` are read in any case.  Numeric texts coerce to numbers; an
integer coerces to the nearest double, a double to its integer part.

* `toBoolean`, `toLong`, `toDouble`, `toNumber` — the coercions, each with the reason it fails.
-/

namespace ExprLang

/-- The number of binary digits of the absolute value. -/
def bitLength (i : Int) : Nat :=
  if i = 0 then 0 else i.natAbs.log2 + 1

namespace Value

/-- Doubles, and texts that read as doubles. -/
def isFloating : Value → Bool
  | .double _ => true
  | .string text => hasFloatingMark text
  | _ => false

/-- The texts that `toDouble` accepts. -/
def isNumericString : Value → Bool
  | .string text => text.isEmpty || (Numeral.ofText? text).isSome
  | _ => false

def toBoolean : Value → Except CoercionError Bool
  | .null => .ok false
  | .boolean b => .ok b
  | .long i => .ok (decide (i ≠ 0))
  | .double x => .ok !x.isZero
  | .string text =>
    if text = [] then .ok false
    else
      let word := Unicode.lower text
      if word = "true".toList then .ok true
      else if word = "false".toList then .ok false
      else .error (.stringToBoolean text)
  | v => .error (.typeToBoolean v.typeName)

def toLong : Value → Except CoercionError Int
  | .null => .ok 0
  | .long i => .ok i
  | .double x =>
    match x.truncate? with
    | some i => .ok i
    | none => .error (.doubleToLong x)
  | .string text =>
    if text = [] then .ok 0
    else
      match (IntegerNumeral.ofText? text).bind (·.toInt?) with
      | some i => .ok i
      | none => .error (.stringToLong text)
  | v => .error (.typeToLong v.typeName)

def toDouble : Value → Except CoercionError Double
  | .null => .ok .zero
  | .double x => .ok x
  | .long i =>
    match Double.ofInt? i with
    | some x => .ok x
    | none => .error (.longToDouble (bitLength i))
  | .string text =>
    if text = [] then .ok .zero
    else
      match Numeral.ofText? text with
      | some n => .ok n.toDouble
      | none => .error (.stringToDouble text)
  | v => .error (.typeToDouble v.typeName)

/-- A double when the value looks like one, an integer otherwise. -/
def toNumber (v : Value) : Except CoercionError Value :=
  if v.isFloating then v.toDouble.map .double else v.toLong.map .long

end Value

end ExprLang
