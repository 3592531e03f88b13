import ExprLang.Proofs.SumOrText
import Mathlib.Data.Rat.Floor

/-!
# Arithmetic on integers

Operands that stand for integers come in four forms: null and the empty text, which are zero,
integers themselves, and texts of digits behind a sign.  On these the operators compute with whole
numbers of any size, so nothing is rounded and nothing overflows.  The remainder goes with the
quotient that is truncated towards zero, although it is computed from the absolute values alone.

* `Denotes` — the operands that stand for an integer, with that integer.
* `arithmetic_of_denotes` — an operator on such operands is its operation on the integers.
* `truncatedQuotient`, `eq_truncatedQuotient` — the quotient that a remainder goes with.
* `ExactArithmetic`, `exactArithmetic_of_denotes` — what the operators give.
-/

namespace ExprLang

namespace Value

/-! ## Operands -/

/-- The operands that stand for an integer. -/
inductive Denotes : Value → Int → Prop where
  | null : Denotes .null 0
  | long (i : Int) : Denotes (.long i) i
  | empty : Denotes (.string []) 0
  | numeral {sign digits : Text} : IsSign sign → IsDigits digits → digits.length ≤ 4300 →
    Denotes (.string (sign ++ digits))
      (if sign = ['-'] then -(digitsValue digits : Int) else digitsValue digits)

section

variable {v l r : Value} {a b : Int}

theorem Denotes.toLong_eq (h : Denotes v a) : v.toLong = .ok a := by
  cases h with
  | null | long | empty => rfl
  | numeral hsign hdigits hlimit => exact (toLong_digits hsign hdigits).trans (if_pos hlimit)

theorem Denotes.not_isFloating (h : Denotes v a) : v.isFloating = false := by
  cases h with
  | null | long | empty => rfl
  | numeral hsign hdigits _ =>
    exact (hasFloatingMark_sign_append hsign _).trans (Lexeme.hasFloatingMark_digits hdigits)

/-- Only the empty text is a text for `+` although it stands for an integer. -/
theorem Denotes.clean (h : Denotes v a) (hne : v ≠ .string []) : Clean v := by
  cases h with
  | null => exact .null
  | long => exact .long _
  | empty => exact absurd rfl hne
  | numeral hsign hdigits _ => exact .string (isNumeral_digits hsign hdigits)

/-! ## Operators -/

theorem isNull_iff : v.isNull = true ↔ v = .null := by
  cases v <;> simp [isNull]

/-- On operands that stand for integers and are not both null, an operator is its operation on the
integers. -/
theorem arithmetic_of_denotes {onLongs : Int → Int → Except Failure Int}
    {onDoubles : Double → Double → Except Failure Double} (hl : Denotes l a) (hr : Denotes r b)
    (hnull : ¬ (l = .null ∧ r = .null)) :
    arithmetic onLongs onDoubles l r = (onLongs a b).map .long := by
  have hboth : ¬ (l.isNull && r.isNull) = true := fun hboth =>
    hnull ((Bool.and_eq_true_iff.1 hboth).imp isNull_iff.1 isNull_iff.1)
  have hpair : numericPair l r = .ok (.longs a b) := by
    rw [numericPair, hl.not_isFloating, hr.not_isFloating, hl.toLong_eq, hr.toLong_eq]
    rfl
  rw [arithmetic, if_neg hboth, hpair]

end

end Value

/-! ## The remainder -/

/-- The quotient of two integers without its fraction. -/
def truncatedQuotient (a b : Int) : Int :=
  if 0 ≤ (a / b : ℚ) then ⌊(a / b : ℚ)⌋ else ⌈(a / b : ℚ)⌉

/-- `m` remains of the dividend `a` when the quotient by `b` is truncated towards zero. -/
structure RemainsOf (a b m : Int) : Prop where
  division : a = truncatedQuotient a b * b + m
  smaller : m.natAbs < b.natAbs
  sign : m = 0 ∨ m.sign = a.sign

section

variable {a b m q : Int}

theorem div_nonneg_of_sign (hsign : m.sign = a.sign) :
    0 ≤ (m / b : ℚ) ↔ 0 ≤ (a / b : ℚ) := by
  have hlow : 0 ≤ m ↔ 0 ≤ a := by rw [← Int.sign_nonneg_iff, hsign, Int.sign_nonneg_iff]
  have hhigh : m ≤ 0 ↔ a ≤ 0 := by rw [← Int.sign_nonpos_iff, hsign, Int.sign_nonpos_iff]
  simp only [div_nonneg_iff, Int.cast_nonneg_iff, Int.cast_nonpos, hlow, hhigh]

/-- There is only one way to write a dividend as a multiple of the divisor and a smaller rest with
the sign of the dividend: the factor is the truncated quotient. -/
theorem eq_truncatedQuotient (hdivision : a = q * b + m) (hsmaller : m.natAbs < b.natAbs)
    (hsign : m = 0 ∨ m.sign = a.sign) : q = truncatedQuotient a b := by
  have hb : (b : ℚ) ≠ 0 := by
    rw [Int.cast_ne_zero]
    omega
  have hsplit : (a / b : ℚ) = q + m / b := by
    rw [hdivision, Int.cast_add, Int.cast_mul, add_div, mul_div_cancel_right₀ _ hb]
  have hfraction : |(m / b : ℚ)| < 1 := by
    rw [abs_div, div_lt_one (abs_pos.2 hb), ← Int.cast_abs, ← Int.cast_abs, Int.cast_lt,
      Int.abs_eq_natAbs, Int.abs_eq_natAbs, Int.ofNat_lt]
    exact hsmaller
  obtain ⟨hlow, hhigh⟩ := abs_lt.1 hfraction
  -- The fraction that is cut off has the sign of the quotient.
  unfold truncatedQuotient
  split
  · rename_i hpos
    have hrest : 0 ≤ (m / b : ℚ) := by
      rcases hsign with rfl | hsign
      · simp
      · exact (div_nonneg_of_sign hsign).2 hpos
    rw [hsplit, eq_comm, Int.floor_eq_iff]
    constructor <;> linarith
  · rename_i hneg
    have hrest : (m / b : ℚ) ≤ 0 := by
      rcases hsign with rfl | hsign
      · simp
      · exact le_of_not_ge (mt (div_nonneg_of_sign hsign).1 hneg)
    rw [hsplit, eq_comm, Int.ceil_eq_iff]
    constructor <;> linarith

/-- The remainder of the absolute values with the sign of the dividend is the one that goes with the
truncated quotient. -/
theorem remainsOf_natAbs_mod (hb : b ≠ 0) (hm : m.natAbs = a.natAbs % b.natAbs)
    (hsign : if a < 0 then m ≤ 0 else 0 ≤ m) : RemainsOf a b m := by
  have hsmaller : m.natAbs < b.natAbs := hm ▸ Nat.mod_lt _ (Int.natAbs_pos.2 hb)
  have hle : m.natAbs ≤ a.natAbs := hm ▸ Nat.mod_le _ _
  have hsame : m = 0 ∨ m.sign = a.sign := by
    rcases lt_trichotomy m 0 with hneg | hzero | hpos
    · rw [Int.sign_eq_neg_one_of_neg hneg, Int.sign_eq_neg_one_of_neg (by split at hsign <;> omega)]
      exact .inr rfl
    · exact .inl hzero
    · rw [Int.sign_eq_one_of_pos hpos, Int.sign_eq_one_of_pos (by split at hsign <;> omega)]
      exact .inr rfl
  have htmod : m = a.tmod b := by
    rw [← Int.natAbs_tmod] at hm
    split at hsign
    · have hrest := Int.tmod_nonneg (a := -a) b (by omega)
      rw [Int.neg_tmod] at hrest
      omega
    · have hrest := Int.tmod_nonneg (a := a) b (by omega)
      omega
  have hdivision : a = a.tdiv b * b + m := by rw [htmod, Int.tdiv_mul_add_tmod]
  exact ⟨eq_truncatedQuotient hdivision hsmaller hsame ▸ hdivision, hsmaller, hsame⟩

open Value in
/-- There is a remainder unless the divisor is zero. -/
theorem exists_longRemainder (hb : b ≠ 0) : ∃ m, longRemainder a b = .ok m ∧ RemainsOf a b m := by
  refine ⟨_, if_neg hb, remainsOf_natAbs_mod hb ?_ ?_⟩
  · split
    · rw [Int.natAbs_neg, Int.natAbs_natCast]
    · rw [Int.natAbs_natCast]
  · split
    · omega
    · omega

end

/-! ## What the operators give -/

open Value

/-- What the operators give for operands that stand for the integers `a` and `b`. -/
structure ExactArithmetic (l r : Value) (a b : Int) : Prop where
  nulls : l = .null → r = .null →
    ∀ operator ∈ [BinaryOperator.add, .subtract, .multiply, .modulo],
      operator.apply l r = .ok (.long 0)
  /-- The empty text has no part in sums: `+` takes it for a text. -/
  sum : ¬ (l = .null ∧ r = .null) → l ≠ .string [] → r ≠ .string [] →
    BinaryOperator.add.apply l r = .ok (.long (a + b))
  difference : ¬ (l = .null ∧ r = .null) →
    BinaryOperator.subtract.apply l r = .ok (.long (a - b))
  product : ¬ (l = .null ∧ r = .null) →
    BinaryOperator.multiply.apply l r = .ok (.long (a * b))
  modulo_fails_iff : ¬ (l = .null ∧ r = .null) →
    (BinaryOperator.modulo.apply l r = .error .moduloByZero ↔ b = 0)
  remainder : ¬ (l = .null ∧ r = .null) → b ≠ 0 →
    ∃ m, BinaryOperator.modulo.apply l r = .ok (.long m) ∧ RemainsOf a b m

section

variable {l r : Value} {a b : Int}

/-- **Integer arithmetic is exact.**  Two nulls give zero.  Otherwise sums, differences and products
are those of the integers, however large, and there is a remainder unless the divisor is zero; it
goes with the quotient truncated towards zero. -/
theorem exactArithmetic_of_denotes (hl : Denotes l a) (hr : Denotes r b) :
    ExactArithmetic l r a b where
  nulls := by
    rintro rfl rfl
    simp only [List.forall_mem_cons]
    exact ⟨rfl, rfl, rfl, rfl, by simp⟩
  sum hnull hlne hrne := by
    rw [BinaryOperator.apply, add_eq_sum (hl.clean hlne) (hr.clean hrne)]
    exact arithmetic_of_denotes hl hr hnull
  difference := arithmetic_of_denotes hl hr
  product := arithmetic_of_denotes hl hr
  modulo_fails_iff hnull := by
    rw [BinaryOperator.apply, Value.remainder, arithmetic_of_denotes hl hr hnull]
    by_cases hb : b = 0
    · rw [longRemainder, if_pos hb]
      exact iff_of_true rfl hb
    · obtain ⟨m, hm, -⟩ := exists_longRemainder (a := a) hb
      rw [hm]
      refine iff_of_false (fun h => ?_) hb
      cases h
  remainder hnull hb := by
    obtain ⟨m, hm, hremains⟩ := exists_longRemainder (a := a) hb
    refine ⟨m, ?_, hremains⟩
    rw [BinaryOperator.apply, Value.remainder, arithmetic_of_denotes hl hr hnull, hm]
    rfl

/-- The text `-07` and the text `+2`, of which the quotient is not whole. -/
theorem exactArithmetic_of_denotes_texts :
    let l := string ['-', '0', '7']
    let r := string ['+', '2']
    Denotes l (-7) ∧ Denotes r 2 ∧ ExactArithmetic l r (-7) 2 ∧
      BinaryOperator.modulo.apply l r = .ok (.long (-1)) ∧ RemainsOf (-7) 2 (-1) := by
  intro l r
  have hl : Denotes l (-7) :=
    @Denotes.numeral ['-'] ['0', '7'] (.inr (.inr rfl)) ⟨by simp, by simp⟩ (by decide)
  have hr : Denotes r 2 :=
    @Denotes.numeral ['+'] ['2'] (.inr (.inl rfl)) ⟨by simp, by simp⟩ (by decide)
  have hexact := exactArithmetic_of_denotes hl hr
  obtain ⟨m, hm, hremains⟩ := hexact.remainder (by simp [l]) (by decide)
  have hvalue : BinaryOperator.modulo.apply l r = .ok (.long (-1)) := rfl
  rw [hvalue] at hm
  cases hm
  exact ⟨hl, hr, hexact, hvalue, hremains⟩

end

end ExprLang
