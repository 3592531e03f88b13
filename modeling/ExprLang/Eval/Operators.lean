import ExprLang.Eval.Wildcard
import ExprLang.Expr.Basic
import ExprLang.Value.Text

/-!
# Operators on values

Numeric operators work on doubles when one operand looks like a double, and on integers otherwise.
Two nulls give zero.  Equality coerces its operands to a common type; order knows texts, numbers
and containers, and null comes neither before nor after anything.

* `equals`, `compare` — equality and order; `order_of_not_strings` — the order without the case of
  two texts.
* `add`, `divide`, `arithmetic` — numbers, and the texts that `+` joins.
* `UnaryOperator.apply`, `BinaryOperator.apply` — an operator on its operands' values.
-/

namespace ExprLang

namespace Value

/-- Two operands in a common numeric type. -/
inductive NumericPair where
  | longs (a b : Int)
  | doubles (x y : Double)
  deriving DecidableEq, Repr

def numericPair (left right : Value) : Except CoercionError NumericPair :=
  if left.isFloating || right.isFloating then
    match left.toDouble with
    | .error error => .error error
    | .ok x =>
      match right.toDouble with
      | .error error => .error error
      | .ok y => .ok (.doubles x y)
  else
    match left.toLong with
    | .error error => .error error
    | .ok a =>
      match right.toLong with
      | .error error => .error error
      | .ok b => .ok (.longs a b)

/-! ## Equality -/

def NumericPair.equal : NumericPair → Bool
  | .longs a b => decide (a = b)
  | .doubles x y => x.equal y

def equalBooleans (left right : Value) : Except CoercionError Bool :=
  match left.toBoolean with
  | .error error => .error error
  | .ok a =>
    match right.toBoolean with
    | .error error => .error error
    | .ok b => .ok (a == b)

def equalTexts (left right : Value) : Except Failure Bool :=
  match left.toText with
  | .error failure => .error failure
  | .ok s =>
    match right.toText with
    | .error failure => .error failure
    | .ok t => .ok (decide (s = t))

/-- Equality up to coercion: null equals null only, a boolean is compared as a boolean, a number as
a number, a text as a text. -/
def equals (left right : Value) : Except Failure Bool :=
  if left.isNull || right.isNull then
    .ok (left.isNull && right.isNull)
  else if left.kind = .boolean ∨ right.kind = .boolean then
    Failure.ofCoercion (equalBooleans left right)
  else if left.kind = .string ∧ right.kind = .string then
    equalTexts left right
  else if left.isNumber || right.isNumber then
    Failure.ofCoercion ((numericPair left right).map NumericPair.equal)
  else if left.kind = .string ∨ right.kind = .string then
    equalTexts left right
  else
    .ok (left.equal right)

/-! ## Order -/

/-- The order of two values of which each is or is not less than the other. -/
def ordering (less greater : Bool) : Ordering :=
  if less then .lt else if greater then .gt else .eq

def NumericPair.order : NumericPair → Ordering
  | .longs a b => ordering (decide (a < b)) (decide (b < a))
  | .doubles x y => ordering (x.less y) (y.less x)

/-- The order of two values that are not null. -/
def order (left right : Value) : Except CoercionError Ordering :=
  let unordered := CoercionError.order left.typeName right.typeName
  if left.kind = .boolean ∨ right.kind = .boolean then
    .error unordered
  else
    match left, right with
    | .string s, .string t => .ok (ordering (Text.less s t) (Text.less t s))
    | _, _ =>
      if left.isNumber || right.isNumber then
        (numericPair left right).map NumericPair.order
      else if left.kind = .foreign ∧ right.kind = .foreign then
        match left.less? right, right.less? left with
        | some less, some greater => .ok (ordering less greater)
        | _, _ => .error unordered
      else
        .error unordered

/-- The order of two values that are not both texts. -/
theorem order_of_not_strings {left right : Value}
    (h : ¬ (left.kind = .string ∧ right.kind = .string)) :
    left.order right =
      if left.kind = .boolean ∨ right.kind = .boolean then
        .error (.order left.typeName right.typeName)
      else if left.isNumber || right.isNumber then
        (numericPair left right).map NumericPair.order
      else if left.kind = .foreign ∧ right.kind = .foreign then
        match left.less? right, right.less? left with
        | some less, some greater => .ok (ordering less greater)
        | _, _ => .error (.order left.typeName right.typeName)
      else
        .error (.order left.typeName right.typeName) := by
  unfold order
  split
  · rfl
  · split
    · exact absurd ⟨rfl, rfl⟩ h
    · rfl

/-- Whether two values are in one of the accepted orders.  Two nulls count as equal; null and
another value are in no order. -/
def compare (accepts : Ordering → Bool) (left right : Value) : Except Failure Bool :=
  if left.isNull || right.isNull then
    .ok (left.isNull && right.isNull && accepts .eq)
  else
    Failure.ofCoercion ((order left right).map accepts)

/-! ## Patterns -/

/-- Whether a text matches a pattern; null matches nothing. -/
def matchesPattern (text pattern : Value) : Except Failure Bool :=
  match text, pattern with
  | .string text, .string pattern => .ok (Wildcard.matchesText pattern text)
  | .null, .string _ => .ok false
  | .string _, .null => .ok false
  | .null, .null => .ok false
  | _, _ => .error (.coercion (.wildcard text.typeName pattern.typeName))

/-! ## Arithmetic -/

/-- An operation on numbers, by its integer and its double form. -/
def arithmetic (onLongs : Int → Int → Except Failure Int)
    (onDoubles : Double → Double → Except Failure Double) (left right : Value) :
    Except Failure Value :=
  if left.isNull && right.isNull then .ok (.long 0)
  else
    match numericPair left right with
    | .error error => .error (.coercion error)
    | .ok (.longs a b) => (onLongs a b).map .long
    | .ok (.doubles x y) => (onDoubles x y).map .double

/-- The remainder of the absolute values, with the sign of the dividend. -/
def longRemainder (a b : Int) : Except Failure Int :=
  if b = 0 then .error .moduloByZero
  else
    let rest : Int := (a.natAbs % b.natAbs : Nat)
    .ok (if a < 0 then -rest else rest)

def doubleRemainder (x y : Double) : Except Failure Double :=
  if y.isZero then .error .moduloByZero
  else
    match x.remainder? y with
    | some r => .ok r
    | none => .error .infiniteDividend

def sum : Value → Value → Except Failure Value :=
  arithmetic (fun a b => .ok (a + b)) (fun x y => .ok (x.add y))

def difference : Value → Value → Except Failure Value :=
  arithmetic (fun a b => .ok (a - b)) (fun x y => .ok (x.sub y))

def product : Value → Value → Except Failure Value :=
  arithmetic (fun a b => .ok (a * b)) (fun x y => .ok (x.mul y))

def remainder : Value → Value → Except Failure Value :=
  arithmetic longRemainder doubleRemainder

/-- One text behind the other. -/
def concatenate (left right : Value) : Except Failure Value :=
  match left.toText with
  | .error failure => .error failure
  | .ok s =>
    match right.toText with
    | .error failure => .error failure
    | .ok t => .ok (.string (s ++ t))

/-- Whether `+` takes the value for a number: null, numbers and numeric texts. -/
def isClean : Value → Bool
  | .null => true
  | .string text => (Numeral.ofText? text).isSome
  | v => v.isNumber

def isString : Value → Bool
  | .string _ => true
  | _ => false

/-- The sum, unless one operand is a text and the operands are not both clean. -/
def add (left right : Value) : Except Failure Value :=
  if (left.isString || right.isString) && !(left.isClean && right.isClean) then
    concatenate left right
  else
    sum left right

/-- The quotient is always a double. -/
def divide (left right : Value) : Except Failure Value :=
  if left.isNull && right.isNull then .ok (.long 0)
  else
    match left.toDouble with
    | .error error => .error (.coercion error)
    | .ok dividend =>
      match right.toDouble with
      | .error error => .error (.coercion error)
      | .ok divisor =>
        if divisor.isZero then .error .divisionByZero
        else .ok (.double (dividend.div divisor))

def negate : Value → Except Failure Value
  | .null => .ok (.long 0)
  | .long i => .ok (.long (-i))
  | .double x => .ok (.double x.neg)
  | .string text =>
    if hasFloatingMark text then
      Failure.ofCoercion ((Value.string text).toDouble.map fun x => .double x.neg)
    else
      Failure.ofCoercion ((Value.string text).toLong.map fun i => .long (-i))
  | v => .error (.coercion (.negate v.typeName))

/-- Null and whatever has the size zero are empty. -/
def isEmpty (v : Value) : Bool :=
  v.isNull || v.size? = some 0

end Value

namespace UnaryOperator

def apply : UnaryOperator → Value → Except Failure Value
  | .not, v => Failure.ofCoercion (v.toBoolean.map fun b => .boolean !b)
  | .negate, v => v.negate
  | .empty, v => .ok (.boolean v.isEmpty)
  | .unknown symbol, _ => .error (.unknownUnaryOperator symbol)

end UnaryOperator

namespace BinaryOperator

/-- The operator on two values.  On values, `||` and `&&` are those of booleans. -/
def apply : BinaryOperator → Value → Value → Except Failure Value
  | .or, v, w =>
    Failure.ofCoercion do return .boolean ((← v.toBoolean) || (← w.toBoolean))
  | .and, v, w =>
    Failure.ofCoercion do return .boolean ((← v.toBoolean) && (← w.toBoolean))
  | .eq, v, w => (v.equals w).map .boolean
  | .ne, v, w => (v.equals w).map fun b => .boolean !b
  | .lt, v, w => (v.compare (· = .lt) w).map .boolean
  | .le, v, w => (v.compare (· ≠ .gt) w).map .boolean
  | .gt, v, w => (v.compare (· = .gt) w).map .boolean
  | .ge, v, w => (v.compare (· ≠ .lt) w).map .boolean
  | .wildcard, v, w => (v.matchesPattern w).map .boolean
  | .add, v, w => v.add w
  | .subtract, v, w => v.difference w
  | .join, v, w => v.concatenate w
  | .multiply, v, w => v.product w
  | .divide, v, w => v.divide w
  | .modulo, v, w => v.remainder w
  | .unknown symbol, _, _ => .error (.unknownOperator symbol)

end BinaryOperator

end ExprLang
