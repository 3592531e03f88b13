import ExprLang.Proofs.TextOperands
import Mathlib.Data.Bool.Basic

/-!
# The nearest double

Which double an integer is rounded to, told by the distances alone: no finite double is nearer to it,
and of two that are equally near it is the one with the even significand.  Integers from half way
between the greatest double and `2 ^ 1024` on go to an infinity.

* `roundToGrid_nearest` — no number on the grid is nearer than the one that is rounded to.
* `roundToGrid_even` — of two that are equally near, it is the one with the even significand.
* `Double.RoundsTo` — the double that an integer is rounded to, by its distance.
* `Double.roundsTo_ofDecimal` — digits without an exponent are read as that double.
-/

namespace ExprLang

/-! ## Rounding to the grid -/

section

variable {n g : Nat}

/-- Half way between two multiples of the denominator, rounding goes to the even one. -/
theorem roundHalfEven_even {num den : Nat} (hden : 0 < den)
    (hhalf : 2 * (roundHalfEven num den * den) = 2 * num + den ∨
      2 * num = 2 * (roundHalfEven num den * den) + den) : roundHalfEven num den % 2 = 0 := by
  have hnum := Nat.div_add_mod num den
  have hrest := Nat.mod_lt num hden
  rw [Nat.mul_comm] at hnum
  unfold roundHalfEven at hhalf ⊢
  dsimp only at hhalf ⊢
  split at hhalf
  · omega
  · split at hhalf
    · rw [Nat.add_one_mul (num / den)] at hhalf
      omega
    · clear hhalf
      repeat' split
      all_goals omega

theorem roundToGrid_one (n : Nat) : roundToGrid n 1 = roundHalfEven n (ulp n) * ulp n := by
  rw [roundToGrid, Nat.div_one, Nat.one_mul]

/-- Rounding is off by half the distance of neighbouring numbers at most. -/
theorem roundToGrid_near (n : Nat) :
    2 * roundToGrid n 1 ≤ 2 * n + ulp n ∧ 2 * n ≤ 2 * roundToGrid n 1 + ulp n := by
  rw [roundToGrid_one]
  exact roundHalfEven_near n (ulp_pos n)

theorem ulp_dvd_roundToGrid (n : Nat) : ulp n ∣ roundToGrid n 1 := by
  rw [roundToGrid_one]
  exact Nat.dvd_mul_left _ _

theorem ulp_dvd_two_pow (n : Nat) : ulp n ∣ 2 ^ n.log2 :=
  Nat.pow_dvd_pow 2 (Nat.sub_le _ _)

theorem add_le_of_dvd {u a b : Nat} (ha : u ∣ a) (hb : u ∣ b) (h : a < b) : a + u ≤ b := by
  have hle := Nat.le_of_dvd (Nat.sub_pos_of_lt h) (Nat.dvd_sub hb ha)
  omega

/-- Numbers on the grid that lie closer together than those around `n` are below the power of two
that `n` reaches. -/
theorem lt_two_pow_of_not_dvd (hgrid : OnGrid g) (h : ¬ ulp n ∣ g) : g < 2 ^ n.log2 := by
  refine Nat.lt_of_not_le fun hle => h ?_
  have hne : g ≠ 0 := by
    have := Nat.two_pow_pos n.log2
    omega
  have hlog : n.log2 ≤ g.log2 := (Nat.le_log2 hne).2 hle
  exact Nat.dvd_trans (Nat.pow_dvd_pow 2 (Nat.sub_le_sub_right hlog 52)) hgrid

/-- Of two multiples of the distance of neighbouring numbers, the one that is rounded to is at most
as far away, and if they are equally far, then `n` is half way between them. -/
theorem roundToGrid_le_of_dvd (hdvd : ulp n ∣ g) :
    ((roundToGrid n 1 : Int) - n).natAbs ≤ ((g : Int) - n).natAbs ∧
      (((g : Int) - n).natAbs = ((roundToGrid n 1 : Int) - n).natAbs → g ≠ roundToGrid n 1 →
        2 * roundToGrid n 1 = 2 * n + ulp n ∨ 2 * n = 2 * roundToGrid n 1 + ulp n) := by
  have hnear := roundToGrid_near n
  have hround := ulp_dvd_roundToGrid n
  rcases Nat.lt_trichotomy g (roundToGrid n 1) with hlt | heq | hlt
  · have hstep := add_le_of_dvd hdvd hround hlt
    omega
  · omega
  · have hstep := add_le_of_dvd hround hdvd hlt
    omega

/-- Numbers on the grid that lie closer together are further away. -/
theorem roundToGrid_lt_of_not_dvd (hgrid : OnGrid g) (h : ¬ ulp n ∣ g) :
    ((roundToGrid n 1 : Int) - n).natAbs < ((g : Int) - n).natAbs := by
  have hne : n ≠ 0 := by
    rintro rfl
    exact h (Nat.one_dvd g)
  have hbelow := lt_two_pow_of_not_dvd hgrid h
  have hreached := Nat.log2_self_le hne
  -- The power of two lies between the two, and it is one of the multiples.
  have hpower := (roundToGrid_le_of_dvd (ulp_dvd_two_pow n)).1
  omega

/-- **No number on the grid is nearer** than the one that is rounded to. -/
theorem roundToGrid_nearest (hgrid : OnGrid g) :
    ((roundToGrid n 1 : Int) - n).natAbs ≤ ((g : Int) - n).natAbs := by
  by_cases h : ulp n ∣ g
  · exact (roundToGrid_le_of_dvd h).1
  · exact Nat.le_of_lt (roundToGrid_lt_of_not_dvd hgrid h)

/-- **Of two equally near numbers** rounding takes the one with the even significand. -/
theorem roundToGrid_even (hgrid : OnGrid g) (hne : g ≠ roundToGrid n 1)
    (hequal : ((g : Int) - n).natAbs = ((roundToGrid n 1 : Int) - n).natAbs) :
    roundToGrid n 1 / ulp (roundToGrid n 1) % 2 = 0 := by
  have hdvd : ulp n ∣ g := by
    by_contra h
    have := roundToGrid_lt_of_not_dvd hgrid h
    omega
  have hhalf := (roundToGrid_le_of_dvd hdvd).2 hequal hne
  have heven : roundHalfEven n (ulp n) % 2 = 0 := by
    rw [roundToGrid_one] at hhalf
    exact roundHalfEven_even (ulp_pos n) hhalf
  have hn : n ≠ 0 := by
    rintro rfl
    rw [roundToGrid_zero] at hhalf
    have := ulp_pos 0
    omega
  have hlow := two_pow_le_roundToGrid hn
  rcases Nat.lt_or_ge (roundToGrid n 1) (2 ^ (n.log2 + 1)) with hhigh | hhigh
  · rw [ulp_eq hlow hhigh, ← ulp, roundToGrid_one, Nat.mul_div_cancel _ (ulp_pos n)]
    exact heven
  · -- Rounding has gone up to the next power of two.
    have htop : roundToGrid n 1 = 2 ^ (n.log2 + 1) := by
      refine Nat.le_antisymm (Nat.le_of_not_lt fun hlt => ?_) hhigh
      have hdvd : ulp n ∣ 2 ^ (n.log2 + 1) := Nat.pow_dvd_pow 2 (by omega)
      have hstep := add_le_of_dvd hdvd (ulp_dvd_roundToGrid n) hlt
      have hbelow : n < 2 ^ (n.log2 + 1) := Nat.lt_log2_self
      have hnear := roundToGrid_near n
      have hpos := ulp_pos n
      omega
    -- A number that has half of a step in it has more than 53 bits.
    have hlarge : 52 ≤ n.log2 + 1 := by
      refine Nat.le_of_not_lt fun hlt => ?_
      rw [ulp, Nat.sub_eq_zero_of_le (by omega), Nat.pow_zero] at hhalf
      omega
    rw [htop, ulp, Nat.log2_two_pow, Nat.pow_div (Nat.sub_le _ _) (by decide),
      Nat.sub_sub_self hlarge]

end

/-! ## Rounding integers -/

namespace Double

/-- How far a finite double is from an integer, in quanta. -/
def distance (i : Int) (negative : Bool) (m : Magnitude) : Nat :=
  (signed negative m - i * quantaPerOne).natAbs

/-- No finite double is nearer to the integer, and of two equally near ones this is the one with the
even significand. -/
structure Nearest (i : Int) (negative : Bool) (m : Magnitude) : Prop where
  le : ∀ negative' m', distance i negative m ≤ distance i negative' m'
  even : ∀ negative' m', signed negative' m' ≠ signed negative m →
    distance i negative' m' = distance i negative m → m.quanta / ulp m.quanta % 2 = 0

/-- The double that an integer is rounded to: the nearest one, or beyond the range of doubles the
infinity with its sign. -/
inductive RoundsTo (i : Int) : Double → Prop where
  | finite {negative : Bool} {m : Magnitude} : i.natAbs + 2 ^ (970 : Nat) < 2 ^ (1024 : Nat) →
    Nearest i negative m → RoundsTo i (.finite negative m)
  | infinite : 2 ^ (1024 : Nat) ≤ i.natAbs + 2 ^ (970 : Nat) →
    RoundsTo i (.infinite (decide (i < 0)))

/-- The integer with that sign and that absolute value. -/
def withSign (negative : Bool) (n : Nat) : Int :=
  if negative then -(n : Int) else n

section

variable {negative : Bool} {n : Nat} {m : Magnitude}

theorem natAbs_withSign (negative : Bool) (n : Nat) : (withSign negative n).natAbs = n := by
  cases negative <;> simp [withSign]

theorem withSign_mul (negative : Bool) (n k : Nat) :
    withSign negative n * k = withSign negative (n * k) := by
  rw [withSign, withSign, Int.natCast_mul]
  split
  · rw [Int.neg_mul]
  · rfl

theorem distance_same (negative : Bool) (n : Nat) (m : Magnitude) :
    distance (withSign negative n) negative m =
      ((m.quanta : Int) - (n * quantaPerOne : Nat)).natAbs := by
  rw [distance, withSign_mul]
  generalize n * quantaPerOne = k
  cases negative <;> simp only [withSign, signed, if_true, Bool.false_eq_true, if_false]
  omega

/-- A double with the other sign is at least as far away as zero. -/
theorem distance_other (negative : Bool) (n : Nat) (m : Magnitude) :
    distance (withSign negative n) (!negative) m = m.quanta + n * quantaPerOne := by
  rw [distance, withSign_mul]
  generalize n * quantaPerOne = k
  cases negative <;>
    simp only [withSign, signed, if_true, Bool.false_eq_true, if_false, Bool.not_true,
      Bool.not_false] <;> omega

/-- Rounding to the grid gives the nearest double. -/
theorem nearest_of_roundToGrid (negative : Bool)
    (hround : roundToGrid (n * quantaPerOne) 1 = m.quanta) :
    Nearest (withSign negative n) negative m := by
  have honGrid : OnGrid 0 := by decide
  have hzero := roundToGrid_nearest (n := n * quantaPerOne) honGrid
  refine ⟨fun negative' m' => ?_, fun negative' m' hne hequal => ?_⟩
  · rw [distance_same, ← hround]
    rcases Bool.eq_or_eq_not negative' negative with rfl | rfl
    · rw [distance_same]
      exact roundToGrid_nearest m'.onGrid
    · rw [distance_other]
      omega
  · rw [distance_same, ← hround] at hequal
    rw [← hround]
    rcases Bool.eq_or_eq_not negative' negative with rfl | rfl
    · rw [distance_same] at hequal
      refine roundToGrid_even m'.onGrid (fun heq => hne ?_) hequal
      rw [signed, signed, heq, hround]
    · -- A double with the other sign can only be as near as zero if it is zero.
      rw [distance_other] at hequal
      have hquanta : m'.quanta = 0 := by omega
      refine roundToGrid_even honGrid (fun heq => hne ?_) (by omega)
      rw [signed, signed, hquanta, ← hround, ← heq]
      simp

theorem ofDecimal_within (negative : Bool) (n : Nat)
    (hrange : n + 2 ^ (970 : Nat) < 2 ^ (1024 : Nat)) :
    ∃ m, roundToGrid (n * quantaPerOne) 1 = m.quanta ∧
      ofDecimal negative n 0 = .finite negative m := by
  have hsome : ofInt? (n : Int) ≠ none := by
    simpa only [ne_eq, ofInt?_eq_none_iff, Int.natAbs_natCast, Nat.not_le] using hrange
  obtain ⟨x, hx⟩ := Option.ne_none_iff_exists'.1 hsome
  have hdecimal := ofDecimal_natAbs hx
  rw [ofInt?_eq, Option.map_eq_some_iff] at hx
  obtain ⟨m, hm, rfl⟩ := hx
  rw [decide_eq_false (by omega), Int.natAbs_natCast] at hdecimal
  exact ⟨m, round?_eq_some_iff.1 hm, ofDecimal_of_finite hdecimal⟩

theorem ofQuotient_eq_infinite {num den : Nat} (negative : Bool)
    (h : Magnitude.round? num den = none) : ofQuotient negative num den = .infinite negative := by
  unfold ofQuotient
  rw [h]

theorem ofDecimal_beyond (negative : Bool) (n : Nat)
    (hrange : 2 ^ (1024 : Nat) ≤ n + 2 ^ (970 : Nat)) :
    ofDecimal negative n 0 = .infinite negative := by
  have hne : n ≠ 0 := by
    rintro rfl
    exact absurd hrange (by decide +kernel)
  have hnone : ofInt? (n : Int) = none := by
    rw [ofInt?_eq_none_iff, Int.natAbs_natCast]
    exact hrange
  rw [ofInt?_eq, Option.map_eq_none_iff, Int.natAbs_natCast] at hnone
  have hscale : (0 + ((0 : Nat) : Int)).toNat = 0 := rfl
  rw [ofDecimal_eq negative hne (k := 0) (by omega), hscale, Nat.pow_zero, Nat.mul_one]
  split
  · rfl
  · rw [if_neg (by omega)]
    exact ofQuotient_eq_infinite negative hnone

/-- **Digits are read as the double that their integer is rounded to.** -/
theorem roundsTo_ofDecimal (negative : Bool) (n : Nat) :
    RoundsTo (withSign negative n) (ofDecimal negative n 0) := by
  rcases Nat.lt_or_ge (n + 2 ^ (970 : Nat)) (2 ^ (1024 : Nat)) with hrange | hrange
  · obtain ⟨m, hround, hdecimal⟩ := ofDecimal_within negative n hrange
    rw [hdecimal]
    exact .finite (by simpa only [natAbs_withSign] using hrange)
      (nearest_of_roundToGrid negative hround)
  · have hpos : 0 < n := Nat.pos_of_ne_zero fun hzero => by
      rw [hzero] at hrange
      exact absurd hrange (by decide +kernel)
    have hsign : negative = decide (withSign negative n < 0) := by
      cases negative <;> simp [withSign, hpos]
    have hinfinite : RoundsTo (withSign negative n) _ :=
      .infinite (by simpa only [natAbs_withSign] using hrange)
    rw [ofDecimal_beyond negative n hrange]
    rwa [← hsign] at hinfinite

end

end Double

end ExprLang
