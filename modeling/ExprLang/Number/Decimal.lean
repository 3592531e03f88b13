import ExprLang.Number.Double
import ExprLang.Text.Basic

/-!
# Decimal text of doubles

A double is written with the fewest significant digits that read back as the same double, and among
these with the ones nearest to it.  The layout is positional from `1e-4` up to `1e16`, with an
exponent outside.

* `Double.ofDecimal` — the double nearest to a decimal.
* `Magnitude.shortest` — the fewest digits, found on the decimal grids from coarse to fine.
* `Double.toText` — the digits in their layout.
-/

namespace ExprLang

/-- The number of decimal digits. -/
def decimalLength (n : Nat) : Nat :=
  (Text.ofNat n).length

/-- The double nearest to `digits * 10 ^ exponent`.  Exponents far beyond the range are decided
without computing the power. -/
def Double.ofDecimal (negative : Bool) (digits : Nat) (exponent : Int) : Double :=
  let scale := exponent + decimalLength digits
  if digits = 0 then .finite negative .zero
  else if 400 < scale then .infinite negative
  else if scale < -400 then .finite negative .zero
  else if 0 ≤ exponent then
    .ofQuotient negative (digits * 10 ^ exponent.toNat * quantaPerOne) 1
  else
    .ofQuotient negative (digits * quantaPerOne) (10 ^ (-exponent).toNat)

/-- A decimal: `digits * 10 ^ exponent`. -/
structure Decimal where
  digits : Nat
  exponent : Int
  deriving DecidableEq, Repr

namespace Magnitude

/-- Whether `candidate / 4` quanta, over the denominator `den`, round to the magnitude: it lies in
the interval around it that reaches half way to each neighbour.  The ends belong to the interval if
the significand is even.  Below a power of two the neighbours are twice as close. -/
def absorbs (m : Magnitude) (den candidate : Nat) : Bool :=
  let gap := ulp m.quanta
  let centre := 4 * m.quanta * den
  let below := if 1 < gap ∧ m.quanta = 2 ^ m.quanta.log2 then gap * den else 2 * gap * den
  let above := 2 * gap * den
  if m.quanta / gap % 2 = 0 then
    decide (centre ≤ candidate + below ∧ candidate ≤ centre + above)
  else
    decide (centre < candidate + below ∧ candidate < centre + above)

/-- The lowest exponent of ten that any grid of the search uses. -/
def finestExponent : Nat := 341

/-- The decimal exponent of the leading digit of a positive magnitude. -/
def leadingExponent (m : Magnitude) : Int :=
  (decimalLength (m.quanta * 10 ^ finestExponent / quantaPerOne) : Int) - 1 - finestExponent

/-- On the grid of multiples of `10 ^ exponent`, the neighbour of the magnitude that reads back as
it; the nearer one if both do, and of two equally near the one with an even last digit. -/
def onDecimalGrid? (m : Magnitude) (exponent : Int) : Option Decimal :=
  let den := 10 ^ finestExponent
  let step := 4 * quantaPerOne * 10 ^ (exponent + finestExponent).toNat
  let centre := 4 * m.quanta * den
  let low := centre / step
  let nearest := roundHalfEven centre step
  let other := if nearest = low then low + 1 else low
  if m.absorbs den (nearest * step) then some ⟨nearest, exponent⟩
  else if m.absorbs den (other * step) then some ⟨other, exponent⟩
  else none

/-- The first grid with a decimal that reads back, from `exponent` downwards; seventeen digits are
always enough. -/
def searchGrids (m : Magnitude) : Nat → Int → Decimal
  | 0, exponent => ⟨0, exponent⟩
  | steps + 1, exponent =>
    match m.onDecimalGrid? exponent with
    | some decimal => decimal
    | none => searchGrids m steps (exponent - 1)

/-- The decimal with the fewest digits that reads back as the magnitude. -/
def shortest (m : Magnitude) : Decimal :=
  if m.quanta = 0 then ⟨0, 0⟩ else m.searchGrids 17 m.leadingExponent

end Magnitude

namespace Decimal

/-- Without the zeros at the end. -/
def significant (d : Decimal) : Text :=
  ((Text.ofNat d.digits).reverse.dropWhile (· = '0')).reverse

/-- The exponent behind its sign, with two digits at least. -/
def exponentText (exponent : Int) : Text :=
  let digits := Text.ofNat exponent.natAbs
  (if exponent < 0 then '-' else '+') :: (if digits.length < 2 then '0' :: digits else digits)

/-- Positional from `1e-4` up to `1e16`, always with a point; with an exponent otherwise. -/
def toText (d : Decimal) : Text :=
  let digits := d.significant
  let point : Int := decimalLength d.digits + d.exponent
  if d.digits = 0 then ['0', '.', '0']
  else if point ≤ -4 ∨ 16 < point then
    let mantissa := match digits with
      | [] => []
      | [first] => [first]
      | first :: rest => first :: '.' :: rest
    mantissa ++ 'e' :: exponentText (point - 1)
  else if point ≤ 0 then
    '0' :: '.' :: List.replicate (-point).toNat '0' ++ digits
  else if digits.length ≤ point.toNat then
    digits ++ List.replicate (point.toNat - digits.length) '0' ++ ['.', '0']
  else
    digits.take point.toNat ++ '.' :: digits.drop point.toNat

end Decimal

/-- The shortest decimal text that reads back; infinities and what is not a number are words. -/
def Double.toText : Double → Text
  | .nan _ => "nan".toList
  | .infinite false => "inf".toList
  | .infinite true => "-inf".toList
  | .finite negative magnitude =>
    if negative then '-' :: magnitude.shortest.toText else magnitude.shortest.toText

end ExprLang
