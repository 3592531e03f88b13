import ExprLang.Number.Decimal

/-!
# Numerals

The numeric texts that coercions accept.  An integer numeral is a sign and ASCII digits.  A numeral
may also have a decimal point, with digits on at least one side of it, and an exponent.

An integer of more than 4300 decimal digits is converted neither from nor to text.
-/

namespace ExprLang

/-- The most decimal digits that a conversion between integers and text handles. -/
def digitLimit : Nat := 4300

/-- The value of ASCII digits. -/
def digitsValue (digits : Text) : Nat :=
  digits.foldl (fun value c => 10 * value + (c.toNat - '0'.toNat)) 0

/-- The text of an integer of at most 4300 digits. -/
def integerText? (i : Int) : Option Text :=
  if i.natAbs < 10 ^ digitLimit then some (Text.ofInt i) else none

/-- Leading ASCII digits and the rest. -/
def spanDigits (text : Text) : Text × Text :=
  (text.takeWhile Char.isDigit, text.dropWhile Char.isDigit)

/-- An optional sign and the rest; true for a minus. -/
def takeSign : Text → Bool × Text
  | '-' :: rest => (true, rest)
  | '+' :: rest => (false, rest)
  | text => (false, text)

/-- Whether a text has a mark that only doubles have: a point or the letter of an exponent. -/
def hasFloatingMark (text : Text) : Bool :=
  text.any fun c => c = '.' || c = 'e' || c = 'E'

/-- The digits of an integer numeral with its sign. -/
structure IntegerNumeral where
  negative : Bool
  digits : Text
  deriving DecidableEq, Repr

namespace IntegerNumeral

def ofText? (text : Text) : Option IntegerNumeral :=
  let (negative, digits) := takeSign text
  if digits ≠ [] ∧ digits.all Char.isDigit then some ⟨negative, digits⟩ else none

/-- The value, unless it has too many digits. -/
def toInt? (n : IntegerNumeral) : Option Int :=
  if n.digits.length ≤ digitLimit then
    some (if n.negative then -(digitsValue n.digits : Int) else digitsValue n.digits)
  else
    none

end IntegerNumeral

/-- The parts of a numeral. -/
structure Numeral where
  negative : Bool
  whole : Text
  fraction : Text
  exponent : Int
  deriving DecidableEq, Repr

namespace Numeral

/-- An exponent that takes up the whole text; none at all counts as zero. -/
def exponentOf? : Text → Option Int
  | [] => some 0
  | mark :: rest =>
    if mark = 'e' ∨ mark = 'E' then
      let (negative, digits) := takeSign rest
      if digits ≠ [] ∧ digits.all Char.isDigit then
        some (if negative then -(digitsValue digits : Int) else digitsValue digits)
      else
        none
    else
      none

def ofText? (text : Text) : Option Numeral :=
  let (negative, body) := takeSign text
  let (whole, rest) := spanDigits body
  let (fraction, rest) := match rest with
    | '.' :: rest => spanDigits rest
    | rest => ([], rest)
  if whole = [] ∧ fraction = [] then
    none
  else
    (exponentOf? rest).map fun exponent => ⟨negative, whole, fraction, exponent⟩

/-- The nearest double. -/
def toDouble (n : Numeral) : Double :=
  .ofDecimal n.negative (digitsValue (n.whole ++ n.fraction)) (n.exponent - n.fraction.length)

end Numeral

end ExprLang
