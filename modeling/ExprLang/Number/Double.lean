import ExprLang.Number.Rounding

/-!
# Doubles

A double is a whole number of quanta of size `2 ^ -1074` with a sign, an infinity, or not a number.
Every operation is computed exactly on integers and rounded once, to the nearest double.

* `less_irrefl`, `equal_comm` — comparison through exact values.
-/

namespace ExprLang

/-- The number of quanta in one. -/
def quantaPerOne : Nat := 2 ^ (1074 : Nat)

/-- All finite magnitudes are below this count of quanta, which is `2 ^ 1024`. -/
def quantaLimit : Nat := 2 ^ (2098 : Nat)

theorem quantaLimit_pos : 0 < quantaLimit := by
  decide +kernel

/-- The absolute value of a finite double, in quanta. -/
structure Magnitude where
  quanta : Nat
  onGrid : OnGrid quanta
  lt_limit : quanta < quantaLimit
  deriving DecidableEq, Repr

namespace Magnitude

def zero : Magnitude := ⟨0, by decide, quantaLimit_pos⟩

/-- The magnitude nearest to `num / den` quanta, unless that is beyond the range. -/
def round? (num den : Nat) : Option Magnitude :=
  if h : roundToGrid num den < quantaLimit then
    some ⟨roundToGrid num den, onGrid_roundToGrid num den, h⟩
  else
    none

end Magnitude

/-- A double.  What is not a number may carry a mark of where it comes from; the mark plays no
part in arithmetic. -/
inductive Double where
  | nan (mark : Option Nat)
  | infinite (negative : Bool)
  | finite (negative : Bool) (magnitude : Magnitude)
  deriving DecidableEq, Repr

/-- An exact value with the two infinities, finite values in quanta. -/
inductive Extended where
  | minusInfinity
  | quanta (count : Int)
  | plusInfinity
  deriving DecidableEq, Repr

namespace Extended

def less : Extended → Extended → Bool
  | .minusInfinity, .minusInfinity => false
  | .minusInfinity, _ => true
  | .quanta _, .minusInfinity => false
  | .quanta a, .quanta b => decide (a < b)
  | .quanta _, .plusInfinity => true
  | .plusInfinity, _ => false

/-- The exact value of an integer. -/
def ofInt (i : Int) : Extended :=
  .quanta (i * quantaPerOne)

theorem less_irrefl (a : Extended) : a.less a = false := by
  cases a <;> simp [less]

end Extended

namespace Double

def zero : Double := .finite false .zero

/-- The double nearest to the quotient of `num` and `den` quanta; beyond the range, an infinity. -/
def ofQuotient (negative : Bool) (num den : Nat) : Double :=
  match Magnitude.round? num den with
  | some magnitude => .finite negative magnitude
  | none => .infinite negative

/-- The double nearest to a whole number of quanta. -/
def ofQuanta (count : Int) : Double :=
  ofQuotient (decide (count < 0)) count.natAbs 1

/-- The double nearest to an integer, unless that is beyond the range. -/
def ofInt? : Int → Option Double
  | .ofNat n => (Magnitude.round? (n * quantaPerOne) 1).map (.finite false)
  | .negSucc n => (Magnitude.round? ((n + 1) * quantaPerOne) 1).map (.finite true)

/-- A finite value in quanta, with its sign. -/
def signed (negative : Bool) (magnitude : Magnitude) : Int :=
  if negative then -(magnitude.quanta : Int) else magnitude.quanta

/-- The exact value of what is a number. -/
def extended? : Double → Option Extended
  | .nan _ => none
  | .infinite true => some .minusInfinity
  | .infinite false => some .plusInfinity
  | .finite negative magnitude => some (.quanta (signed negative magnitude))

/-- Equality of values: what is not a number equals nothing, and both zeros are equal. -/
def equal (x y : Double) : Bool :=
  match x.extended?, y.extended? with
  | some a, some b => decide (a = b)
  | _, _ => false

def less (x y : Double) : Bool :=
  match x.extended?, y.extended? with
  | some a, some b => a.less b
  | _, _ => false

theorem less_irrefl (x : Double) : x.less x = false := by
  unfold less
  cases x.extended? with
  | none => rfl
  | some a => exact a.less_irrefl

theorem equal_comm (x y : Double) : x.equal y = y.equal x := by
  unfold equal
  cases x.extended? <;> cases y.extended? <;> simp [eq_comm]

def isZero : Double → Bool
  | .finite _ magnitude => magnitude.quanta == 0
  | _ => false

def neg : Double → Double
  | .nan _ => .nan none
  | .infinite negative => .infinite !negative
  | .finite negative magnitude => .finite (!negative) magnitude

/-- A sum that is zero has a minus sign only if both operands have one. -/
def add : Double → Double → Double
  | .finite s m, .finite t n =>
    let sum := signed s m + signed t n
    if sum = 0 then .finite (s && t) .zero else ofQuanta sum
  | .nan _, _ => .nan none
  | _, .nan _ => .nan none
  | .infinite s, .infinite t => if s = t then .infinite s else .nan none
  | .infinite s, .finite _ _ => .infinite s
  | .finite _ _, .infinite t => .infinite t

def sub (x y : Double) : Double :=
  add x y.neg

def mul : Double → Double → Double
  | .finite s m, .finite t n => ofQuotient (s != t) (m.quanta * n.quanta) quantaPerOne
  | .nan _, _ => .nan none
  | _, .nan _ => .nan none
  | .infinite s, .infinite t => .infinite (s != t)
  | .infinite s, .finite t n => if n.quanta = 0 then .nan none else .infinite (s != t)
  | .finite s m, .infinite t => if m.quanta = 0 then .nan none else .infinite (s != t)

def div : Double → Double → Double
  | .finite s m, .finite t n =>
    if n.quanta = 0 then
      if m.quanta = 0 then .nan none else .infinite (s != t)
    else
      ofQuotient (s != t) (m.quanta * quantaPerOne) n.quanta
  | .nan _, _ => .nan none
  | _, .nan _ => .nan none
  | .infinite _, .infinite _ => .nan none
  | .infinite s, .finite t _ => .infinite (s != t)
  | .finite s _, .infinite t => .finite (s != t) .zero

/-- The exact remainder of the quotient truncated towards zero; it has the sign of the dividend.
There is none for an infinite dividend and a divisor that is a number, or for a zero divisor. -/
def remainder? : Double → Double → Option Double
  | .nan _, _ => some (.nan none)
  | _, .nan _ => some (.nan none)
  | .infinite _, _ => none
  | .finite s m, .infinite _ => some (.finite s m)
  | .finite s m, .finite _ n =>
    if n.quanta = 0 then none else some (ofQuotient s (m.quanta % n.quanta) 1)

/-- The integer part of a finite double. -/
def truncate? : Double → Option Int
  | .finite negative magnitude =>
    let whole := magnitude.quanta / quantaPerOne
    some (if negative then -(whole : Int) else whole)
  | _ => none

end Double

end ExprLang
