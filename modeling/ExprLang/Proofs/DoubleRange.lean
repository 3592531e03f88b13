import ExprLang.Proofs.ShortestDecimal

/-!
# The range of doubles

Which integers have a nearest double.  Half way between the greatest double and `2 ^ 1024` rounding
goes up, as the significand of the greatest double is odd, so that the range ends there.

* `le_roundHalfEven_iff` — what is rounded to an even number or beyond it.
* `two_pow_le_roundToGrid_iff` — what is rounded to a power of two or beyond it.
* `ofInt?_eq_none_iff` — the integers beyond the range.
-/

namespace ExprLang

section

variable {num den k : Nat}

/-- A number is rounded to an even multiple of the denominator or beyond it from half way below it
on. -/
theorem le_roundHalfEven_iff (hden : 0 < den) (heven : k % 2 = 0) :
    k ≤ roundHalfEven num den ↔ 2 * (k * den) ≤ 2 * num + den := by
  have hnum := Nat.div_add_mod num den
  have hrest := Nat.mod_lt num hden
  rw [Nat.mul_comm] at hnum
  have hmul : ∀ {a b : Nat}, a ≤ b → a * den ≤ b * den := fun h => Nat.mul_le_mul_right den h
  -- The products of the multiples that matter are compared first.
  have hle : k ≤ num / den → k * den ≤ num / den * den := hmul
  have hgt : num / den + 1 ≤ k → num / den * den + den ≤ k * den := fun h => by
    have := hmul h
    rwa [Nat.add_one_mul] at this
  have hgt' : num / den + 2 ≤ k → num / den * den + 2 * den ≤ k * den := fun h => by
    have := hmul h
    rwa [Nat.add_mul] at this
  have heq : k = num / den + 1 → k * den = num / den * den + den := fun h => by
    rw [h, Nat.add_one_mul]
  unfold roundHalfEven
  dsimp only
  split
  · omega
  · split
    · omega
    · split <;> omega

theorem le_roundHalfEven (num den : Nat) : num / den ≤ roundHalfEven num den := by
  unfold roundHalfEven
  dsimp only
  repeat' split
  all_goals omega

end

section

variable {n : Nat}

theorem roundToGrid_le (hn : n ≠ 0) : roundToGrid n 1 ≤ 2 * n := by
  rw [roundToGrid, Nat.div_one, Nat.one_mul]
  calc roundHalfEven n (ulp n) * ulp n
      ≤ (n / ulp n + 1) * ulp n := Nat.mul_le_mul_right _ (roundHalfEven_le _ _)
    _ = n / ulp n * ulp n + ulp n := Nat.add_one_mul _ _
    _ ≤ n + n := Nat.add_le_add (Nat.div_mul_le_self n (ulp n)) (ulp_le hn)
    _ = 2 * n := (Nat.two_mul n).symm

/-- Rounding does not go below the power of two that a number reaches. -/
theorem two_pow_le_roundToGrid (hn : n ≠ 0) : 2 ^ n.log2 ≤ roundToGrid n 1 := by
  rw [roundToGrid, Nat.div_one, Nat.one_mul]
  have hdvd : ulp n ∣ 2 ^ n.log2 := Nat.pow_dvd_pow 2 (Nat.sub_le _ _)
  calc 2 ^ n.log2
      = 2 ^ n.log2 / ulp n * ulp n := (Nat.div_mul_cancel hdvd).symm
    _ ≤ n / ulp n * ulp n :=
      Nat.mul_le_mul_right _ (Nat.div_le_div_right (Nat.log2_self_le hn))
    _ ≤ roundHalfEven n (ulp n) * ulp n := Nat.mul_le_mul_right _ (le_roundHalfEven n (ulp n))

end

/-- A number is rounded to a power of two or beyond it from half way between the power of two and
the number on the grid below it on. -/
theorem two_pow_le_roundToGrid_iff {n k m s : Nat} (hm : m = k + 53) :
    2 ^ (m + 1 + s) ≤ roundToGrid (n * 2 ^ s) 1 ↔ 2 ^ (m + 1) ≤ n + 2 ^ k := by
  have hscale := Nat.two_pow_pos s
  have hhalf : 2 ^ (m + 1) = 2 ^ m * 2 := Nat.pow_succ 2 m
  have hstep : 2 ^ k ≤ 2 ^ m := Nat.pow_le_pow_right (by decide) (by omega)
  rcases Nat.eq_zero_or_pos n with rfl | hn
  · rw [Nat.zero_mul, roundToGrid_zero]
    have := Nat.two_pow_pos (m + 1 + s)
    have := Nat.two_pow_pos m
    omega
  have hne : n * 2 ^ s ≠ 0 := Nat.mul_ne_zero (by omega) (by omega)
  rw [Nat.pow_add 2 (m + 1) s]
  rcases Nat.lt_or_ge n (2 ^ m) with hlow | hlow
  · -- Rounding at most doubles a number.
    have hle := roundToGrid_le hne
    have hlt := Nat.mul_lt_mul_of_pos_right hlow hscale
    rw [hhalf, Nat.mul_right_comm]
    omega
  rcases Nat.lt_or_ge n (2 ^ (m + 1)) with hhigh | hhigh
  · have hulp : ulp (n * 2 ^ s) = 2 ^ (k + 1 + s) := by
      have hexponent : m + s - 52 = k + 1 + s := by omega
      rw [← hexponent]
      refine ulp_eq ?_ ?_
      · rw [Nat.pow_add 2 m s]
        exact Nat.mul_le_mul_right _ hlow
      · rw [Nat.add_right_comm, Nat.pow_add 2 (m + 1) s]
        exact Nat.mul_lt_mul_of_pos_right hhigh hscale
    have hmul : 2 ^ (m + 1) * 2 ^ s = 2 ^ 53 * 2 ^ (k + 1 + s) := by
      have hexponent : m + 1 + s = 53 + (k + 1 + s) := by omega
      rw [← Nat.pow_add, hexponent, Nat.pow_add 2 53]
    have hunit : 2 ^ (k + 1 + s) = 2 * (2 ^ k * 2 ^ s) := by
      rw [Nat.pow_add, Nat.pow_succ, Nat.mul_comm (2 ^ k) 2, Nat.mul_assoc]
    rw [roundToGrid, Nat.div_one, Nat.one_mul, hulp, hmul,
      Nat.mul_le_mul_right_iff (Nat.two_pow_pos (k + 1 + s)),
      le_roundHalfEven_iff (Nat.two_pow_pos (k + 1 + s)) (by decide), ← hmul, hunit,
      ← Nat.mul_add, Nat.mul_le_mul_left_iff (by decide), ← Nat.add_mul,
      Nat.mul_le_mul_right_iff hscale]
  · refine iff_of_true ?_ (Nat.le_add_right_of_le hhigh)
    rw [← Nat.pow_add]
    refine Nat.le_trans (Nat.pow_le_pow_right (by decide) ?_) (two_pow_le_roundToGrid hne)
    rw [Nat.le_log2 hne, Nat.pow_add 2 (m + 1) s]
    exact Nat.mul_le_mul_right _ hhigh

/-- An integer has no nearest double from half way between the greatest double and the next power
of two on. -/
theorem ofInt?_eq_none_iff {i : Int} :
    Double.ofInt? i = none ↔ 2 ^ (1024 : Nat) ≤ i.natAbs + 2 ^ (970 : Nat) := by
  have hround : ∀ n : Nat, Magnitude.round? (n * quantaPerOne) 1 = none ↔
      2 ^ (1024 : Nat) ≤ n + 2 ^ (970 : Nat) := by
    intro n
    have hgrid := @two_pow_le_roundToGrid_iff n 970 1023 1074 rfl
    unfold Magnitude.round? quantaLimit quantaPerOne
    rw [dite_eq_right_iff]
    simp only [reduceCtorEq, imp_false, Nat.not_lt]
    simpa only [Nat.reduceAdd] using hgrid
  cases i with
  | ofNat n =>
    rw [Double.ofInt?, Option.map_eq_none_iff, hround, Int.ofNat_eq_natCast, Int.natAbs_natCast]
  | negSucc n => rw [Double.ofInt?, Option.map_eq_none_iff, hround, Int.natAbs_negSucc]

end ExprLang
