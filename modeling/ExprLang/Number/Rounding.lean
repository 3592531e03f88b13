/-!
# Rounding to 53 significant bits

Every finite double is a whole number of quanta of size `2 ^ -1074` with at most 53 significant
bits.  A quotient of natural numbers is rounded to the nearest such number; of two that are equally
near, the one with the even significand is taken.

* `roundHalfEven_le` — rounding to a whole number is off by less than one.
* `onGrid_roundToGrid` — the result has at most 53 significant bits.
-/

namespace ExprLang

-- Powers of natural numbers are those of the core library, here and wherever this is imported.
attribute [scoped instance (2000)] instPowNat

/-- The whole number nearest to `num / den`; a half goes to the even neighbour. -/
def roundHalfEven (num den : Nat) : Nat :=
  let quotient := num / den
  let rest := num % den
  if 2 * rest < den then quotient
  else if den < 2 * rest then quotient + 1
  else if quotient % 2 = 0 then quotient
  else quotient + 1

theorem roundHalfEven_le (num den : Nat) : roundHalfEven num den ≤ num / den + 1 := by
  unfold roundHalfEven
  dsimp only
  repeat' split
  all_goals omega

/-- The distance of neighbouring doubles around a count of quanta. -/
def ulp (quanta : Nat) : Nat :=
  2 ^ (quanta.log2 - 52)

theorem ulp_pos (quanta : Nat) : 0 < ulp quanta :=
  Nat.two_pow_pos _

/-- A count of quanta with at most 53 significant bits. -/
def OnGrid (quanta : Nat) : Prop :=
  ulp quanta ∣ quanta

instance (quanta : Nat) : Decidable (OnGrid quanta) :=
  inferInstanceAs (Decidable (_ ∣ _))

/-- The count of quanta on the grid nearest to `num / den`. -/
def roundToGrid (num den : Nat) : Nat :=
  roundHalfEven num (den * ulp (num / den)) * ulp (num / den)

theorem onGrid_mul_two_pow {k s : Nat} (h : k ≤ 2 ^ (53 : Nat)) : OnGrid (k * 2 ^ s) := by
  unfold OnGrid ulp
  rcases Nat.eq_zero_or_pos k with rfl | hk
  · simp
  rcases Nat.lt_or_eq_of_le h with h | rfl
  · have hlog : (k * 2 ^ s).log2 < 53 + s := by
      rw [Nat.log2_lt (Nat.mul_ne_zero_iff.2 ⟨by omega, by have := Nat.two_pow_pos s; omega⟩),
        Nat.pow_add]
      exact Nat.mul_lt_mul_of_pos_right h (Nat.two_pow_pos s)
    exact Nat.dvd_trans (Nat.pow_dvd_pow 2 (by omega)) (Nat.dvd_mul_left _ _)
  · rw [← Nat.pow_add, Nat.log2_two_pow]
    exact Nat.pow_dvd_pow 2 (by omega)

theorem onGrid_roundToGrid (num den : Nat) : OnGrid (roundToGrid num den) := by
  apply onGrid_mul_two_pow
  refine Nat.le_trans (roundHalfEven_le _ _) ?_
  rw [← Nat.div_div_eq_div_mul]
  have h : num / den < 2 ^ (53 + ((num / den).log2 - 52)) :=
    Nat.lt_of_lt_of_le Nat.lt_log2_self (Nat.pow_le_pow_right (by decide) (by omega))
  rw [Nat.pow_add] at h
  exact (Nat.div_lt_iff_lt_mul (ulp_pos _)).2 h

end ExprLang
