import ExprLang.Proofs.ContainerOrder
import ExprLang.Proofs.WellFormedTrees

/-!
# The laws of comparison

Equality and order coerce their operands, each in its own way, and both are independent of which
operand stands on which side: equality is symmetric, and the orders are mirrored.  They also go
together: what is in an order is less, greater or equal, and not two of these.  Only what is not a
number is at most and at least everything that it is compared with, without being less, greater or
equal.

* `numericPair_swap` — a common numeric type does not depend on the side.
* `Ranked` — how the orders of two values in both directions and their equality go together, with
  `ranked_order` for all values that are not null.
* `comparison_mirrored` — equality is symmetric, and orders are mirrored.
* `order_agrees_with_equality` — equality and order go together, unless what is not a number
  decides.
-/

namespace ExprLang

namespace Value

/-! ## Orders -/

theorem Verdict.ordering {P : Prop} {less greater equal : Bool}
    (h : Verdict P (some less) (some greater) equal) :
    ordering greater less = (ordering less greater).swap ∧
      (equal = decide (ordering less greater = .eq) ∨
        P ∧ ordering less greater = .eq ∧ equal = false) := by
  cases h with
  | less | greater | equal => exact ⟨rfl, .inl rfl⟩
  | undecided h => exact ⟨rfl, .inr ⟨h, rfl, rfl⟩⟩

/-- How the order of two values, the order of the same values the other way round and their equality
go together. -/
inductive Ranked (v w : Value) :
    Except CoercionError Ordering → Except CoercionError Ordering → Except Failure Bool → Prop where
  | unordered {error error' : CoercionError} {equal : Except Failure Bool} :
    Ranked v w (.error error) (.error error') equal
  | ordered (o : Ordering) : Ranked v w (.ok o) (.ok o.swap) (.ok (decide (o = .eq)))
  | undecided : DecidedByNan v w → Ranked v w (.ok .eq) (.ok .eq) (.ok false)

theorem Verdict.ranked {v w : Value} {less greater equal : Bool}
    (h : Verdict (DecidedByNan v w) (some less) (some greater) equal) :
    Ranked v w (.ok (Value.ordering less greater)) (.ok (Value.ordering greater less))
      (.ok equal) := by
  obtain ⟨hswap, rfl | ⟨hdecided, heq, rfl⟩⟩ := h.ordering
  · rw [hswap]
    exact .ordered _
  · rw [hswap, heq]
    exact .undecided hdecided

/-! ## Numbers -/

section

variable {v w : Value} {pair : NumericPair}

theorem ofInt?_ne_nan {i : Int} {mark : Option Nat} : Double.ofInt? i ≠ some (.nan mark) := by
  intro h
  cases i with
  | ofNat | negSucc =>
    rw [Double.ofInt?, Option.map_eq_some_iff] at h
    obtain ⟨_, -, hfinite⟩ := h
    cases hfinite

theorem toDouble_numeral_ne_nan {n : Numeral} {mark : Option Nat} : n.toDouble ≠ .nan mark := by
  intro h
  rw [Numeral.toDouble] at h
  rcases finite_or_infinite_ofDecimal n.negative (digitsValue (n.whole ++ n.fraction))
    (n.exponent - n.fraction.length) with ⟨m, hm⟩ | hm
  · rw [hm] at h
    cases h
  · rw [hm] at h
    cases h

/-- No coercion comes to what is not a number, unless it is there from the start. -/
theorem toDouble_eq_nan {mark : Option Nat} (h : v.toDouble = .ok (.nan mark)) :
    v = .double (.nan mark) := by
  unfold toDouble at h
  split at h
  · cases h
  · cases h
    rfl
  · split at h
    · rename_i hnearest
      rw [Except.ok.injEq] at h
      exact absurd (h ▸ hnearest) ofInt?_ne_nan
    · cases h
  · split at h
    · cases h
    · split at h
      · exact absurd (Except.ok.inj h) toDouble_numeral_ne_nan
      · cases h
  · cases h

namespace NumericPair

def swap : NumericPair → NumericPair
  | .longs a b => .longs b a
  | .doubles x y => .doubles y x

/-- One of the two is not a number. -/
def HasNan : NumericPair → Prop
  | .longs _ _ => False
  | .doubles x y => x.extended? = none ∨ y.extended? = none

theorem verdict (pair : NumericPair) : ∃ less greater,
    pair.order = ordering less greater ∧ pair.swap.order = ordering greater less ∧
      Verdict pair.HasNan (some less) (some greater) pair.equal := by
  cases pair with
  | longs a b => exact ⟨_, _, rfl, rfl, verdict_lt a b⟩
  | doubles x y =>
    refine ⟨_, _, rfl, rfl, ?_⟩
    simp only [equal, Double.equal, Double.less, HasNan]
    cases hx : x.extended? with
    | none => cases y.extended? <;> exact .undecided (.inl rfl)
    | some a =>
      cases hy : y.extended? with
      | none => exact .undecided (.inr rfl)
      | some b => exact verdict_extended a b

end NumericPair

/-- A common numeric type does not depend on which operand stands on which side. -/
theorem numericPair_swap (v w : Value) :
    (∃ error error', v.numericPair w = .error error ∧ w.numericPair v = .error error') ∨
      ∃ pair, v.numericPair w = .ok pair ∧ w.numericPair v = .ok pair.swap := by
  unfold numericPair
  rw [Bool.or_comm w.isFloating]
  split
  · cases v.toDouble <;> cases w.toDouble <;> simp [NumericPair.swap]
  · cases v.toLong <;> cases w.toLong <;> simp [NumericPair.swap]

theorem nan_of_extended? {x : Double} (h : x.extended? = none) : ∃ mark, x = .nan mark := by
  rcases x with mark | (_ | _) | _
  · exact ⟨mark, rfl⟩
  all_goals cases h

theorem doubles_of_isFloating (h : (v.isFloating || w.isFloating) = true)
    (hpair : v.numericPair w = .ok pair) :
    ∃ x y, v.toDouble = .ok x ∧ w.toDouble = .ok y ∧ pair = .doubles x y := by
  rw [numericPair, if_pos h] at hpair
  cases hv : v.toDouble with
  | error => simp [hv] at hpair
  | ok x =>
    cases hw : w.toDouble with
    | error => simp [hv, hw] at hpair
    | ok y =>
      simp only [hv, hw, Except.ok.injEq] at hpair
      exact ⟨x, y, rfl, rfl, hpair.symm⟩

theorem longs_of_not_isFloating (h : ¬ (v.isFloating || w.isFloating) = true)
    (hpair : v.numericPair w = .ok pair) :
    ∃ a b, v.toLong = .ok a ∧ w.toLong = .ok b ∧ pair = .longs a b := by
  rw [numericPair, if_neg h] at hpair
  cases hv : v.toLong with
  | error => simp [hv] at hpair
  | ok a =>
    cases hw : w.toLong with
    | error => simp [hv, hw] at hpair
    | ok b =>
      simp only [hv, hw, Except.ok.injEq] at hpair
      exact ⟨a, b, rfl, rfl, hpair.symm⟩

theorem decidedByNan_of_hasNan (hv : v.isNull = false) (hw : w.isNull = false)
    (hpair : v.numericPair w = .ok pair) (h : pair.HasNan) : DecidedByNan v w := by
  cases pair with
  | longs => exact h.elim
  | doubles x y =>
    have hdoubles : v.toDouble = .ok x ∧ w.toDouble = .ok y := by
      by_cases hfloating : (v.isFloating || w.isFloating) = true
      · obtain ⟨_, _, hx, hy, heq⟩ := doubles_of_isFloating hfloating hpair
        cases heq
        exact ⟨hx, hy⟩
      · obtain ⟨_, _, -, -, heq⟩ := longs_of_not_isFloating hfloating hpair
        cases heq
    obtain ⟨hx, hy⟩ := hdoubles
    rcases h with hnan | hnan
    · obtain ⟨mark, rfl⟩ := nan_of_extended? hnan
      rw [toDouble_eq_nan hx]
      exact .left hw
    · obtain ⟨mark, rfl⟩ := nan_of_extended? hnan
      rw [toDouble_eq_nan hy]
      exact .right hv

theorem ranked_numbers (hv : v.isNull = false) (hw : w.isNull = false) :
    Ranked v w ((v.numericPair w).map NumericPair.order) ((w.numericPair v).map NumericPair.order)
      (Failure.ofCoercion ((v.numericPair w).map NumericPair.equal)) := by
  rcases numericPair_swap v w with ⟨error, error', hvw, hwv⟩ | ⟨pair, hvw, hwv⟩
  · rw [hvw, hwv]
    exact .unordered
  · obtain ⟨less, greater, horder, hswap, hverdict⟩ := pair.verdict
    rw [hvw, hwv]
    simp only [Except.map, horder, hswap, Failure.ofCoercion, Except.mapError]
    exact (hverdict.imp (decidedByNan_of_hasNan hv hw hvw)).ranked

end

/-! ## Values that are not null -/

section

variable {v w : Value}

theorem equals_of_not_isNull (hv : v.isNull = false) (hw : w.isNull = false) :
    v.equals w =
      if v.kind = .boolean ∨ w.kind = .boolean then Failure.ofCoercion (equalBooleans v w)
      else if v.kind = .string ∧ w.kind = .string then equalTexts v w
      else if v.isNumber || w.isNumber then
        Failure.ofCoercion ((v.numericPair w).map NumericPair.equal)
      else if v.kind = .string ∨ w.kind = .string then equalTexts v w
      else .ok (v.equal w) := by
  rw [equals, hv, hw]
  rfl

theorem eq_string_of_kind (h : v.kind = .string) : ∃ text, v = .string text := by
  cases v with
  | string text => exact ⟨text, rfl⟩
  | _ => cases h

/-- **The orders of two values in both directions and their equality go together**, for values that
are not null. -/
theorem ranked_order (hv : v.HasDistinctKeys) (hw : w.HasDistinctKeys) (hvn : v.isNull = false)
    (hwn : w.isNull = false) : Ranked v w (v.order w) (w.order v) (v.equals w) := by
  by_cases hstrings : v.kind = .string ∧ w.kind = .string
  · obtain ⟨s, rfl⟩ := eq_string_of_kind hstrings.1
    obtain ⟨t, rfl⟩ := eq_string_of_kind hstrings.2
    exact (verdict_lt s t).ranked
  rw [equals_of_not_isNull hvn hwn, if_neg hstrings, order_of_not_strings hstrings,
    order_of_not_strings fun h => hstrings h.symm]
  by_cases hboolean : v.kind = .boolean ∨ w.kind = .boolean
  · simp only [if_pos hboolean, if_pos hboolean.symm]
    exact .unordered
  simp only [if_neg hboolean, if_neg fun h => hboolean (Or.symm h), Bool.or_comm w.isNumber]
  by_cases hnumber : (v.isNumber || w.isNumber) = true
  · simp only [if_pos hnumber]
    exact ranked_numbers hvn hwn
  simp only [if_neg hnumber]
  by_cases hforeign : v.kind = .foreign ∧ w.kind = .foreign
  · have hstring : ¬ (v.kind = .string ∨ w.kind = .string) := by simp [hforeign.1, hforeign.2]
    simp only [if_pos hforeign, if_pos hforeign.symm, if_neg hstring]
    have hverdict := verdict_less? hv hw
    generalize v.equal w = equal at hverdict
    generalize v.less? w = less at hverdict
    generalize w.less? v = greater at hverdict
    cases less with
    | none =>
      cases hverdict
      exact .unordered
    | some less =>
      cases greater with
      | none => cases hverdict
      | some greater => exact hverdict.ranked
  · simp only [if_neg hforeign, if_neg fun h => hforeign (And.symm h)]
    exact .unordered

/-! ## Orders and equality do not depend on the side -/

/-- Both answers are the same boolean, or both are failures of the same kind. -/
inductive SameAnswer : Except Failure Value → Except Failure Value → Prop where
  | boolean (b : Bool) : SameAnswer (.ok (.boolean b)) (.ok (.boolean b))
  | failure {failure failure' : Failure} : failure.typeName = failure'.typeName →
    SameAnswer (.error failure) (.error failure')

/-- One answer is the negation of the other one, or both are the same failure. -/
inductive OppositeAnswer : Except Failure Value → Except Failure Value → Prop where
  | boolean (b : Bool) : OppositeAnswer (.ok (.boolean b)) (.ok (.boolean !b))
  | failure (failure : Failure) : OppositeAnswer (.error failure) (.error failure)

theorem NumericPair.equal_swap (pair : NumericPair) : pair.swap.equal = pair.equal := by
  cases pair with
  | longs a b => exact decide_eq_decide.2 eq_comm
  | doubles x y => exact Double.equal_comm y x

theorem equalBooleans_swap :
    SameAnswer ((Failure.ofCoercion (equalBooleans v w)).map .boolean)
      ((Failure.ofCoercion (equalBooleans w v)).map .boolean) := by
  unfold equalBooleans
  cases v.toBoolean with
  | error => cases w.toBoolean <;> exact .failure rfl
  | ok a =>
    cases w.toBoolean with
    | error => exact .failure rfl
    | ok b =>
      simp only [BEq.comm (a := b)]
      exact .boolean _

/-- Of two operands of which one is a text only the other one can be without a text. -/
theorem equalTexts_swap (h : v.kind = .string ∨ w.kind = .string) :
    SameAnswer ((equalTexts v w).map .boolean) ((equalTexts w v).map .boolean) := by
  unfold equalTexts
  rcases h with h | h
  · obtain ⟨s, rfl⟩ := eq_string_of_kind h
    cases w.toText with
    | error => exact .failure rfl
    | ok t =>
      simp only [toText_string, eq_comm (a := t)]
      exact .boolean _
  · obtain ⟨t, rfl⟩ := eq_string_of_kind h
    cases v.toText with
    | error => exact .failure rfl
    | ok s =>
      simp only [toText_string, eq_comm (a := t)]
      exact .boolean _

theorem equalNumbers_swap :
    SameAnswer ((Failure.ofCoercion ((v.numericPair w).map NumericPair.equal)).map .boolean)
      ((Failure.ofCoercion ((w.numericPair v).map NumericPair.equal)).map .boolean) := by
  rcases numericPair_swap v w with ⟨_, _, hvw, hwv⟩ | ⟨pair, hvw, hwv⟩
  · rw [hvw, hwv]
    exact .failure rfl
  · rw [hvw, hwv]
    simp only [Except.map, Failure.ofCoercion, Except.mapError, pair.equal_swap]
    exact .boolean _

theorem equals_of_isNull (h : (v.isNull || w.isNull) = true) :
    v.equals w = .ok (v.isNull && w.isNull) := by
  rw [equals, if_pos h]

/-- **Equality is symmetric**, failures included. -/
theorem equals_swap (hv : v.HasDistinctKeys) (hw : w.HasDistinctKeys) :
    SameAnswer ((v.equals w).map .boolean) ((w.equals v).map .boolean) := by
  by_cases hnull : (v.isNull || w.isNull) = true
  · rw [equals_of_isNull hnull, equals_of_isNull (Bool.or_comm _ _ ▸ hnull),
      Bool.and_comm w.isNull]
    exact .boolean _
  obtain ⟨hvn, hwn⟩ := Bool.or_eq_false_iff.1 (Bool.eq_false_iff.2 hnull)
  rw [equals_of_not_isNull hvn hwn, equals_of_not_isNull hwn hvn]
  by_cases hboolean : v.kind = .boolean ∨ w.kind = .boolean
  · simp only [if_pos hboolean, if_pos hboolean.symm]
    exact equalBooleans_swap
  simp only [if_neg hboolean, if_neg fun h => hboolean (Or.symm h)]
  by_cases hstrings : v.kind = .string ∧ w.kind = .string
  · simp only [if_pos hstrings, if_pos hstrings.symm]
    exact equalTexts_swap (.inl hstrings.1)
  simp only [if_neg hstrings, if_neg fun h => hstrings (And.symm h), Bool.or_comm w.isNumber]
  by_cases hnumber : (v.isNumber || w.isNumber) = true
  · simp only [if_pos hnumber]
    exact equalNumbers_swap
  simp only [if_neg hnumber]
  by_cases hstring : v.kind = .string ∨ w.kind = .string
  · simp only [if_pos hstring, if_pos hstring.symm]
    exact equalTexts_swap hstring
  · simp only [if_neg hstring, if_neg fun h => hstring (Or.symm h), equal_comm hw hv]
    exact .boolean _

theorem compare_of_isNull {accepts : Ordering → Bool} (h : (v.isNull || w.isNull) = true) :
    v.compare accepts w = .ok (v.isNull && w.isNull && accepts .eq) := by
  rw [compare, if_pos h]

theorem compare_of_not_isNull {accepts : Ordering → Bool} (hv : v.isNull = false)
    (hw : w.isNull = false) :
    v.compare accepts w = Failure.ofCoercion ((v.order w).map accepts) := by
  rw [compare, hv, hw]
  rfl

/-- **Orders are mirrored**: an order and its mirror image hold of the same values in the two
directions, and fail together. -/
theorem compare_swap {accepts accepts' : Ordering → Bool} (hv : v.HasDistinctKeys)
    (hw : w.HasDistinctKeys) (haccepts : ∀ o, accepts' o.swap = accepts o) :
    SameAnswer ((v.compare accepts w).map .boolean) ((w.compare accepts' v).map .boolean) := by
  by_cases hnull : (v.isNull || w.isNull) = true
  · rw [compare_of_isNull hnull, compare_of_isNull (Bool.or_comm _ _ ▸ hnull),
      Bool.and_comm w.isNull, ← haccepts]
    exact .boolean _
  obtain ⟨hvn, hwn⟩ := Bool.or_eq_false_iff.1 (Bool.eq_false_iff.2 hnull)
  rw [compare_of_not_isNull hvn hwn, compare_of_not_isNull hwn hvn]
  have hranked := ranked_order hv hw hvn hwn
  generalize v.order w = order at hranked
  generalize w.order v = order' at hranked
  generalize v.equals w = equal at hranked
  cases hranked with
  | unordered => exact .failure rfl
  | ordered o =>
    simp only [Except.map, Failure.ofCoercion, Except.mapError, haccepts]
    exact .boolean _
  | undecided =>
    simp only [Except.map, Failure.ofCoercion, Except.mapError, ← haccepts .eq]
    exact .boolean _

theorem numericPair_self (hnumber : v.isNumber = true) (h : v.IsNanFree) :
    ∃ pair, v.numericPair v = .ok pair ∧ pair.equal = true := by
  cases v with
  | long i => exact ⟨.longs i i, rfl, decide_eq_true rfl⟩
  | double x =>
    refine ⟨.doubles x x, rfl, ?_⟩
    rcases x with mark | (_ | _) | _
    · exact absurd .self (h mark)
    all_goals simp [NumericPair.equal, Double.equal, Double.extended?]
  | _ => cases hnumber

/-- What holds nothing that is not a number equals itself. -/
theorem equals_self (h : v.IsNanFree) : v.equals v = .ok true := by
  cases v with
  | null => rfl
  | boolean b => exact congrArg Except.ok (beq_self_eq_true b)
  | string s =>
    rw [equals_of_not_isNull rfl rfl, if_neg (by simp [kind]), if_pos ⟨rfl, rfl⟩]
    simp [equalTexts]
  | long | double =>
    obtain ⟨pair, hpair, hequal⟩ := numericPair_self rfl h
    rw [equals_of_not_isNull rfl rfl, if_neg (by simp [kind]), if_neg (by simp [kind]),
      if_pos (by rfl), hpair, Except.map, hequal]
    rfl
  | _ => exact congrArg Except.ok (equal_self h)

/-! ## What is not a number decides -/

theorem NumericPair.order_of_hasNan {pair : NumericPair} (h : pair.HasNan) :
    pair.order = .eq ∧ pair.equal = false := by
  cases pair with
  | longs => exact h.elim
  | doubles x y =>
    simp only [HasNan] at h
    simp only [order, equal, Double.less, Double.equal]
    rcases h with h | h
    · rw [h]
      cases y.extended? <;> exact ⟨rfl, rfl⟩
    · rw [h]
      cases x.extended? <;> exact ⟨rfl, rfl⟩

theorem kind_of_isNumber (h : v.isNumber = true) : v.kind ≠ .string := by
  intro hstring
  simp [isNumber, hstring] at h

theorem not_strings_of_isNumber (h : (v.isNumber || w.isNumber) = true) :
    ¬ (v.kind = .string ∧ w.kind = .string) := by
  rcases Bool.or_eq_true_iff.1 h with h | h
  · exact fun hstrings => kind_of_isNumber h hstrings.1
  · exact fun hstrings => kind_of_isNumber h hstrings.2

/-- Numbers that are compared with what is not a number are at most and at least this. -/
theorem order_of_hasNan (hv : v.isNull = false) (hw : w.isNull = false)
    (hnumber : (v.isNumber || w.isNumber) = true)
    (hnan : ∀ pair, v.numericPair w = .ok pair → pair.HasNan) :
    (∃ error, v.order w = .error error) ∨ v.order w = .ok .eq ∧ v.equals w = .ok false := by
  have hstrings := not_strings_of_isNumber hnumber
  rw [equals_of_not_isNull hv hw, order_of_not_strings hstrings, if_neg hstrings, if_pos hnumber,
    if_pos hnumber]
  by_cases hboolean : v.kind = .boolean ∨ w.kind = .boolean
  · exact .inl ⟨_, if_pos hboolean⟩
  rw [if_neg hboolean, if_neg hboolean]
  cases hpair : v.numericPair w with
  | error error => exact .inl ⟨error, rfl⟩
  | ok pair =>
    obtain ⟨horder, hequal⟩ := NumericPair.order_of_hasNan (hnan pair hpair)
    refine .inr ⟨?_, ?_⟩
    · rw [Except.map, horder]
    · rw [Except.map, hequal]
      rfl

/-- Lists and tuples are compared without a coercion. -/
theorem order_of_foreign (hv : v.kind = .foreign) (hw : w.kind = .foreign) :
    v.equals w = .ok (v.equal w) ∧
      ((∃ error, v.order w = .error error) ∨
        ∃ less greater, v.less? w = some less ∧ w.less? v = some greater ∧
          v.order w = .ok (ordering less greater)) := by
  have hnull : ∀ {u : Value}, u.kind = .foreign → u.isNull = false ∧ u.isNumber = false := by
    intro u hu
    cases u with
    | null | long | double => cases hu
    | _ => exact ⟨rfl, rfl⟩
  constructor
  · rw [equals_of_not_isNull (hnull hv).1 (hnull hw).1, hv, hw, (hnull hv).2, (hnull hw).2]
    rfl
  · rw [order_of_not_strings (by simp [hv]), (hnull hv).2, (hnull hw).2, hv, hw]
    cases hless : v.less? w with
    | none => exact .inl ⟨_, rfl⟩
    | some less =>
      cases hgreater : w.less? v with
      | none => exact .inl ⟨_, rfl⟩
      | some greater => exact .inr ⟨less, greater, rfl, rfl, rfl⟩

theorem DecidedByNan.isNull (h : DecidedByNan v w) : v.isNull = false ∧ w.isNull = false := by
  cases h with
  | left h => exact ⟨rfl, h⟩
  | right h => exact ⟨h, rfl⟩
  | list | tuple => exact ⟨rfl, rfl⟩

/-- Where what is not a number decides, values are in no order, or at most and at least one another
without being equal. -/
theorem order_of_decidedByNan (hv : v.HasDistinctKeys) (hw : w.HasDistinctKeys)
    (h : DecidedByNan v w) :
    (∃ error, v.order w = .error error) ∨ v.order w = .ok .eq ∧ v.equals w = .ok false := by
  have hitems : v.kind = .foreign → w.kind = .foreign → v.equal w = false →
      (∃ error, v.order w = .error error) ∨ v.order w = .ok .eq ∧ v.equals w = .ok false := by
    intro hvk hwk hne
    obtain ⟨hequals, herror | ⟨less, greater, hless, hgreater, horder⟩⟩ := order_of_foreign hvk hwk
    · exact .inl herror
    · have hl := less?_of_decidedByNan h
      have hg := less?_of_decidedByNan (h.symm hv hw)
      rw [hless] at hl
      rw [hgreater] at hg
      cases less with
      | true => exact absurd rfl hl
      | false =>
        cases greater with
        | true => exact absurd rfl hg
        | false => exact .inr ⟨horder, hequals.trans (by rw [hne])⟩
  cases h with
  | @left mark w hw =>
    refine order_of_hasNan rfl hw rfl fun pair hpair => ?_
    obtain ⟨x, y, hx, -, rfl⟩ := doubles_of_isFloating rfl hpair
    cases hx
    exact .inl rfl
  | @right v mark hv =>
    refine order_of_hasNan hv rfl (Bool.or_true _) fun pair hpair => ?_
    obtain ⟨x, y, -, hy, rfl⟩ := doubles_of_isFloating (Bool.or_true _) hpair
    cases hy
    exact .inr rfl
  | list hbefore hne =>
    refine hitems rfl rfl ?_
    rw [equal, (compareItems_behind _ _ hbefore).1, equalItems, hne]
    rfl
  | tuple hbefore hne =>
    refine hitems rfl rfl ?_
    rw [equal, (compareItems_behind _ _ hbefore).1, equalItems, hne]
    rfl

end

end Value

open Value

section

variable {v w : Value}

/-- **Equality is symmetric, and orders are mirrored.**  For two values of which no dictionary has
two equal keys: equality answers the same in both directions, and inequality is its negation; less
answers as greater does the other way round, and at most as at least.  Failures are of the same kind
in both directions.  Whatever holds nothing that is not a number equals itself. -/
theorem comparison_mirrored (hv : v.HasDistinctKeys) (hw : w.HasDistinctKeys) :
    SameAnswer (BinaryOperator.eq.apply v w) (BinaryOperator.eq.apply w v) ∧
      OppositeAnswer (BinaryOperator.eq.apply v w) (BinaryOperator.ne.apply v w) ∧
      SameAnswer (BinaryOperator.lt.apply v w) (BinaryOperator.gt.apply w v) ∧
      SameAnswer (BinaryOperator.le.apply v w) (BinaryOperator.ge.apply w v) ∧
      (v.IsNanFree → BinaryOperator.eq.apply v v = .ok (.boolean true)) := by
  refine ⟨equals_swap hv hw, ?_, compare_swap hv hw fun o => ?_, compare_swap hv hw fun o => ?_,
    fun hnan => ?_⟩
  · simp only [BinaryOperator.apply]
    cases v.equals w with
    | error failure => exact .failure failure
    | ok b => exact .boolean b
  · cases o <;> rfl
  · cases o <;> rfl
  · rw [BinaryOperator.apply, equals_self hnan]
    rfl

/-- Two dictionaries with a list and a tuple in them, in different orders and with booleans in the
place of integers. -/
theorem comparison_mirrored_dictionaries :
    let v := dict [(string ['a'], list [long 0]), (tuple [boolean true], string ['x'])]
    let w := dict [(tuple [long 1], string ['x']), (string ['a'], list [boolean false])]
    v.HasDistinctKeys ∧ w.HasDistinctKeys ∧ v.IsNanFree ∧
      BinaryOperator.eq.apply v w = .ok (.boolean true) ∧
      SameAnswer (BinaryOperator.eq.apply v w) (BinaryOperator.eq.apply w v) ∧
      SameAnswer (BinaryOperator.lt.apply v w) (BinaryOperator.gt.apply w v) ∧
      BinaryOperator.eq.apply v v = .ok (.boolean true) := by
  intro v w
  have hleaf : ∀ {u : Value}, u.isContainer = false → u.HasDistinctKeys :=
    hasDistinctKeys_of_not_isContainer
  have hsingle : ∀ {u : Value}, u.isContainer = false →
      (list [u]).HasDistinctKeys ∧ (tuple [u]).HasDistinctKeys := fun hu =>
    ⟨.of_contents (by simp) (by simp [contents, hleaf hu]),
      .of_contents (by simp) (by simp [contents, hleaf hu])⟩
  have hv : v.HasDistinctKeys := by
    have hbuilt : v = ofEntries [(string ['a'], list [long 0]),
        (tuple [boolean true], string ['x'])] := rfl
    rw [hbuilt]
    refine hasDistinctKeys_ofEntries ?_
    simp only [List.forall_mem_cons]
    exact ⟨⟨hleaf rfl, (hsingle rfl).1⟩, ⟨(hsingle rfl).2, hleaf rfl⟩, by simp⟩
  have hw : w.HasDistinctKeys := by
    have hbuilt : w = ofEntries [(tuple [long 1], string ['x']),
        (string ['a'], list [boolean false])] := rfl
    rw [hbuilt]
    refine hasDistinctKeys_ofEntries ?_
    simp only [List.forall_mem_cons]
    exact ⟨⟨(hsingle rfl).2, hleaf rfl⟩, ⟨hleaf rfl, (hsingle rfl).1⟩, by simp⟩
  have hnan : v.IsNanFree := by
    have hleaf := @isNanFree_of_not_isContainer
    refine .of_contents (by simp [v]) ?_
    simp only [v, contents, List.flatMap_cons, List.flatMap_nil, List.forall_mem_append,
      List.forall_mem_cons]
    refine ⟨⟨hleaf rfl (by simp), .of_contents (by simp) ?_, by simp⟩,
      ⟨.of_contents (by simp) ?_, hleaf rfl (by simp), by simp⟩, by simp⟩
    · simpa [contents] using @hleaf (long 0) rfl (by simp)
    · simpa [contents] using @hleaf (boolean true) rfl (by simp)
  have hequal : v.equal w = true := by decide +kernel
  obtain ⟨hsymm, -, hmirrored, -, hself⟩ := comparison_mirrored hv hw
  exact ⟨hv, hw, hnan, congrArg (fun b => Except.ok (boolean b)) hequal, hsymm, hmirrored,
    hself hnan⟩

end

namespace BinaryOperator

/-- The operator is true of two values. -/
def Holds (operator : BinaryOperator) (v w : Value) : Prop :=
  operator.apply v w = .ok (.boolean true)

end BinaryOperator

open BinaryOperator

section

variable {v w : Value}

theorem holds_eq_iff {b : Bool} (h : v.equals w = .ok b) : eq.Holds v w ↔ b = true := by
  rw [Holds, apply, h]
  simp [Except.map]

theorem holds_order_iff {o : Ordering} (hv : v.isNull = false) (hw : w.isNull = false)
    (h : v.order w = .ok o) :
    (lt.Holds v w ↔ o = .lt) ∧ (le.Holds v w ↔ o ≠ .gt) ∧ (gt.Holds v w ↔ o = .gt) ∧
      (ge.Holds v w ↔ o ≠ .lt) := by
  simp [Holds, apply, compare_of_not_isNull hv hw, h, Except.map, Failure.ofCoercion,
    Except.mapError]

/-- **Equality and order go together**, for two values of which no dictionary has two equal keys and
that are in an order: at most is less or equal, and at least is greater or equal, and no two of
less, equal and greater hold of values that are not null.  There is one way out of this.  Where what
is not a number decides, values are at most and at least one another, and neither less nor equal nor
greater. -/
theorem order_agrees_with_equality (hv : v.HasDistinctKeys) (hw : w.HasDistinctKeys)
    (hordered : ∀ operator ∈ [lt, le, gt, ge], ∃ value, operator.apply v w = .ok value) :
    (le.Holds v w ↔ lt.Holds v w ∨ eq.Holds v w ∨ DecidedByNan v w) ∧
      (ge.Holds v w ↔ gt.Holds v w ∨ eq.Holds v w ∨ DecidedByNan v w) ∧
      (v.isNull = false → w.isNull = false →
        ¬ (lt.Holds v w ∧ eq.Holds v w) ∧ ¬ (lt.Holds v w ∧ gt.Holds v w) ∧
          ¬ (eq.Holds v w ∧ gt.Holds v w)) ∧
      (DecidedByNan v w → ¬ lt.Holds v w ∧ ¬ eq.Holds v w ∧ ¬ gt.Holds v w) := by
  by_cases hnull : (v.isNull || w.isNull) = true
  · have hdecided : ¬ DecidedByNan v w := by
      intro h
      rw [h.isNull.1, h.isNull.2] at hnull
      cases hnull
    simp [Holds, apply, equals_of_isNull hnull, compare_of_isNull hnull, Except.map, hdecided]
  obtain ⟨hvn, hwn⟩ := Bool.or_eq_false_iff.1 (Bool.eq_false_iff.2 hnull)
  have hranked := ranked_order hv hw hvn hwn
  have hundecided := order_of_decidedByNan hv hw
  generalize horder : v.order w = order at hranked hundecided
  generalize w.order v = order' at hranked
  generalize hequals : v.equals w = equal at hranked hundecided
  cases hranked with
  | unordered =>
    obtain ⟨value, hvalue⟩ := hordered lt (by simp)
    rw [apply, compare_of_not_isNull hvn hwn, horder] at hvalue
    cases hvalue
  | ordered o =>
    have hdecided : ¬ DecidedByNan v w := by
      intro h
      rcases hundecided h with ⟨_, herror⟩ | ⟨ho, hne⟩
      · cases herror
      · cases ho
        cases hne
    obtain ⟨hlt, hle, hgt, hge⟩ := holds_order_iff hvn hwn horder
    rw [hlt, hle, hgt, hge, holds_eq_iff hequals]
    cases o <;> simp [hdecided]
  | undecided hdecided =>
    obtain ⟨hlt, hle, hgt, hge⟩ := holds_order_iff hvn hwn horder
    rw [hlt, hle, hgt, hge, holds_eq_iff hequals]
    simp [hdecided]

/-- Two lists of which the second items differ, as one of them is not a number. -/
theorem order_agrees_with_equality_lists :
    let v := list [string ['a'], double (.nan none)]
    let w := list [string ['a'], long 2]
    v.HasDistinctKeys ∧ w.HasDistinctKeys ∧
      (∀ operator ∈ [lt, le, gt, ge], ∃ value, operator.apply v w = .ok value) ∧
      DecidedByNan v w ∧ (le.Holds v w ↔ lt.Holds v w ∨ eq.Holds v w ∨ DecidedByNan v w) ∧
      ¬ lt.Holds v w ∧ ¬ eq.Holds v w ∧ ¬ gt.Holds v w := by
  intro v w
  have hlist : ∀ x : Value, x.isContainer = false → (list [string ['a'], x]).HasDistinctKeys :=
    fun x hx => .of_contents (by simp) (by
      simp [contents, hasDistinctKeys_of_not_isContainer hx,
        hasDistinctKeys_of_not_isContainer (v := string ['a']) rfl])
  have hdecided : DecidedByNan v w :=
    @DecidedByNan.list [string ['a']] [string ['a']] [] [] _ _ rfl rfl (.left rfl)
  have hordered : ∀ operator ∈ [lt, le, gt, ge], ∃ value, operator.apply v w = .ok value := by
    simp only [List.forall_mem_cons]
    exact ⟨⟨_, rfl⟩, ⟨_, rfl⟩, ⟨_, rfl⟩, ⟨_, rfl⟩, by simp⟩
  obtain ⟨hle, -, -, hnone⟩ := order_agrees_with_equality (hlist _ rfl) (hlist _ rfl) hordered
  exact ⟨hlist _ rfl, hlist _ rfl, hordered, hdecided, hle, hnone hdecided⟩

/-- The difference of two infinities is at most infinite, and neither less than this nor equal to
it. -/
theorem at_most_without_less_or_equal :
    let infinity := double (.infinite false)
    let difference := double (.nan none)
    subtract.apply infinity infinity = .ok difference ∧
      (∀ operator ∈ [lt, le, gt, ge], ∃ value, operator.apply difference infinity = .ok value) ∧
      ¬ (le.Holds difference infinity ↔
        lt.Holds difference infinity ∨ eq.Holds difference infinity) := by
  refine ⟨rfl, ?_, ?_⟩
  · simp only [List.forall_mem_cons]
    exact ⟨⟨_, rfl⟩, ⟨_, rfl⟩, ⟨_, rfl⟩, ⟨_, rfl⟩, by simp⟩
  · intro h
    rcases h.1 rfl with hlt | heq
    · cases hlt
    · cases heq

end

end ExprLang
