import ExprLang.Number.Decimal

/-!
# The shortest decimal reads back

The decimal that a double is written with is the same double when it is read.  The argument has
three parts: what lies in the interval of a magnitude rounds to it; the search finds a decimal in
that interval after seventeen digits at the latest; and how many zeros a decimal is written with
makes no difference to the reader.

* `Near.roundToGrid_eq_self` — what lies in the interval of a double is rounded to it.
* `exists_onDecimalGrid_shortest` — the search does not come back empty-handed.
* `ofDecimal_mul_ten_pow` — zeros at the end of the digits count like the exponent.
* `ofDecimal_shortest` — the shortest decimal is read as the double that it was made for.
-/

namespace ExprLang

/-! ## Rounding -/

section

variable {num den k : Nat}

theorem roundHalfEven_mul_mul {c : Nat} (hc : 0 < c) :
    roundHalfEven (c * num) (c * den) = roundHalfEven num den := by
  have hmod : c * num % (c * den) = c * (num % den) := Nat.mul_mod_mul_left c num den
  have hlt : ∀ a b, c * a < c * b ↔ a < b := fun a b => Nat.mul_lt_mul_left hc
  simp only [roundHalfEven, Nat.mul_div_mul_left num den hc, hmod, Nat.mul_left_comm 2 c, hlt]

/-- A number at most half way from a multiple of the denominator is rounded to it; half way, the
multiple has to be an even one. -/
theorem roundHalfEven_eq (hden : 0 < den) (hlow : 2 * (k * den) ≤ 2 * num + den)
    (hhigh : 2 * num ≤ 2 * (k * den) + den)
    (hodd : k % 2 = 1 → 2 * (k * den) < 2 * num + den ∧ 2 * num < 2 * (k * den) + den) :
    roundHalfEven num den = k := by
  have hnum := Nat.div_add_mod num den
  have hrest := Nat.mod_lt num hden
  rw [Nat.mul_comm] at hnum
  -- only the quotient and its successor are near enough
  have hk : k = num / den ∨ k = num / den + 1 := by
    have hge : num / den ≤ k := by
      refine Nat.le_of_not_lt fun hlt => ?_
      have := Nat.mul_le_mul_right den (Nat.succ_le_of_lt hlt)
      rw [Nat.add_one_mul k] at this
      omega
    have hle : k ≤ num / den + 1 := by
      refine Nat.le_of_not_lt fun hlt => ?_
      have := Nat.mul_le_mul_right den (Nat.succ_le_of_lt hlt)
      rw [Nat.succ_eq_add_one, Nat.add_one_mul, Nat.add_one_mul (num / den)] at this
      omega
    omega
  unfold roundHalfEven
  dsimp only
  rcases hk with rfl | rfl
  · split
    · rfl
    · split
      · omega
      · split <;> omega
  · rw [Nat.add_one_mul (num / den)] at hlow hhigh hodd
    split
    · omega
    · split
      · rfl
      · split <;> omega

theorem roundHalfEven_near (num : Nat) (hden : 0 < den) :
    2 * (roundHalfEven num den * den) ≤ 2 * num + den ∧
      2 * num ≤ 2 * (roundHalfEven num den * den) + den := by
  have hnum := Nat.div_add_mod num den
  have hrest := Nat.mod_lt num hden
  rw [Nat.mul_comm] at hnum
  unfold roundHalfEven
  dsimp only
  split
  · omega
  · split
    · rw [Nat.add_one_mul (num / den)]
      omega
    · split
      · omega
      · rw [Nat.add_one_mul (num / den)]
        omega

theorem roundToGrid_mul_mul {c : Nat} (hc : 0 < c) :
    roundToGrid (c * num) (c * den) = roundToGrid num den := by
  rw [roundToGrid, Nat.mul_div_mul_left num den hc, Nat.mul_assoc, roundHalfEven_mul_mul hc,
    roundToGrid]

end

/-! ## The distance of neighbouring doubles -/

section

variable {q p : Nat}

theorem ulp_eq {e : Nat} (hlow : 2 ^ e ≤ p) (hhigh : p < 2 ^ (e + 1)) : ulp p = 2 ^ (e - 52) := by
  have hne : p ≠ 0 := by
    have := Nat.two_pow_pos e
    omega
  rw [ulp, (Nat.log2_eq_iff hne).2 ⟨hlow, hhigh⟩]

/-- Below twice the power of two that a number on the grid reaches, there is room for one more. -/
theorem add_ulp_le (hgrid : OnGrid q) : q + ulp q ≤ 2 ^ (q.log2 + 1) := by
  have hdvd : ulp q ∣ 2 ^ (q.log2 + 1) := Nat.pow_dvd_pow 2 (by omega)
  have hlt : q < 2 ^ (q.log2 + 1) := Nat.lt_log2_self
  have hle := Nat.le_of_dvd (Nat.sub_pos_of_lt hlt) (Nat.dvd_sub hdvd hgrid)
  omega

/-- A number on the grid that is above the power of two that it reaches is above it by one at
least. -/
theorem two_pow_add_ulp_le (hgrid : OnGrid q) (hlt : 2 ^ q.log2 < q) :
    2 ^ q.log2 + ulp q ≤ q := by
  have hdvd : ulp q ∣ 2 ^ q.log2 := Nat.pow_dvd_pow 2 (by omega)
  have hle := Nat.le_of_dvd (Nat.sub_pos_of_lt hlt) (Nat.dvd_sub hgrid hdvd)
  omega

theorem ulp_le (hne : q ≠ 0) : ulp q ≤ q :=
  Nat.le_trans (Nat.pow_le_pow_right (by decide) (by omega)) (Nat.log2_self_le hne)

/-- Small numbers are all as far apart as the smallest ones. -/
theorem ulp_eq_one {e : Nat} (h : p < 2 ^ (e + 1)) (he : e ≤ 52) : ulp p = 1 := by
  by_cases hp : p = 0
  · rw [hp, ulp, Nat.log2_zero]
  · have hlog : p.log2 ≤ 52 := by
      rw [← Nat.log2_lt hp] at h
      omega
    rw [ulp, Nat.sub_eq_zero_of_le hlog, Nat.pow_zero]

/-- All others are twice as far apart as those below the power of two that they reach. -/
theorem exists_half_ulp (h : 52 < q.log2) :
    ∃ e, q.log2 = e + 1 ∧ ulp q = 2 * 2 ^ (e - 52) := by
  refine ⟨q.log2 - 1, by omega, ?_⟩
  have hsucc : q.log2 - 52 = q.log2 - 1 - 52 + 1 := by omega
  rw [ulp, hsucc, Nat.pow_add_one']

end

/-! ## The interval of a double -/

/-- The number `candidate / (4 * den)` lies in the interval around `q` that is rounded to it.  Just
below a power of two the interval is half as wide, and the ends belong to it only if the
significand is even. -/
structure Near (q den candidate : Nat) : Prop where
  low : 4 * (q * den) ≤ candidate + 2 * (ulp q * den)
  high : candidate ≤ 4 * (q * den) + 2 * (ulp q * den)
  narrow : 1 < ulp q → q = 2 ^ q.log2 → 4 * (q * den) ≤ candidate + ulp q * den
  strict : q / ulp q % 2 = 1 → 4 * (q * den) < candidate + 2 * (ulp q * den) ∧
    candidate < 4 * (q * den) + 2 * (ulp q * den)

section

variable {q den candidate k u : Nat}

/-- What a number is rounded to where the distance of neighbouring doubles is `u`. -/
theorem roundToGrid_eq (hden : 0 < den) (hu : ulp (candidate / (4 * den)) = u)
    (hlow : 4 * (k * u * den) ≤ candidate + 2 * (u * den))
    (hhigh : candidate ≤ 4 * (k * u * den) + 2 * (u * den))
    (hodd : k % 2 = 1 → 4 * (k * u * den) < candidate + 2 * (u * den) ∧
      candidate < 4 * (k * u * den) + 2 * (u * den)) :
    roundToGrid candidate (4 * den) = k * u := by
  have hpos : 0 < 4 * den * u := Nat.mul_pos (by omega) (hu ▸ ulp_pos _)
  have hstep : 4 * den * u = 4 * (u * den) := by rw [Nat.mul_assoc, Nat.mul_comm u]
  have hcentre : k * (4 * den * u) = 4 * (k * u * den) := by
    rw [hstep, Nat.mul_left_comm, Nat.mul_assoc k]
  rw [roundToGrid, hu, roundHalfEven_eq hpos (k := k)]
  · rw [hcentre, hstep]
    omega
  · rw [hcentre, hstep]
    omega
  · rw [hcentre, hstep]
    omega

namespace Near

/-- Mostly the doubles around a number are as far apart as those around what it is near to. -/
theorem roundToGrid_of_ulp (h : Near q den candidate) (hden : 0 < den) (hgrid : OnGrid q)
    (hu : ulp (candidate / (4 * den)) = ulp q) : roundToGrid candidate (4 * den) = q := by
  have hk : q / ulp q * ulp q = q := Nat.div_mul_cancel hgrid
  have hround := roundToGrid_eq hden hu (k := q / ulp q)
  rw [hk] at hround
  exact hround h.low h.high h.strict

theorem lt_two_pow (h : Near q den candidate) (hden : 0 < den) (hgrid : OnGrid q) :
    candidate / (4 * den) < 2 ^ (q.log2 + 1) := by
  have hhigh := h.high
  have hgap : 0 < ulp q * den := Nat.mul_pos (ulp_pos q) hden
  have hroom := Nat.mul_le_mul_right den (add_ulp_le hgrid)
  rw [Nat.add_mul] at hroom
  rw [Nat.div_lt_iff_lt_mul (by omega), Nat.mul_left_comm]
  omega

/-- Only a power of two is near to numbers below that power of two. -/
theorem eq_two_pow (h : Near q den candidate) (hden : 0 < den) (hgrid : OnGrid q) (hne : q ≠ 0)
    (hbefore : candidate / (4 * den) < 2 ^ q.log2) : q = 2 ^ q.log2 := by
  refine Nat.le_antisymm (Nat.le_of_not_lt fun hlt => ?_) (Nat.log2_self_le hne)
  have hlow := h.low
  have hroom := Nat.mul_le_mul_right den (two_pow_add_ulp_le hgrid hlt)
  rw [Nat.add_mul] at hroom
  rw [Nat.div_lt_iff_lt_mul (by omega), Nat.mul_left_comm] at hbefore
  omega

/-- Just below a power of two the doubles are half as far apart as above it. -/
theorem roundToGrid_before_two_pow (h : Near q den candidate) (hden : 0 < den) (hgrid : OnGrid q)
    (hne : q ≠ 0) (hlarge : 52 < q.log2) (hbefore : candidate / (4 * den) < 2 ^ q.log2) :
    roundToGrid candidate (4 * den) = q := by
  have hpower := h.eq_two_pow hden hgrid hne hbefore
  obtain ⟨e, he, hu⟩ := exists_half_ulp hlarge
  have hnear := h.narrow (by have := Nat.two_pow_pos (e - 52); omega) hpower
  have hle := Nat.mul_le_mul_right den (ulp_le hne)
  have hq : q * den = 2 * (2 ^ e * den) := by
    rw [← Nat.mul_assoc, ← Nat.pow_add_one', ← he, ← hpower]
  have hhalf : ulp (candidate / (4 * den)) = 2 ^ (e - 52) := by
    refine ulp_eq ?_ (he ▸ hbefore)
    rw [Nat.le_div_iff_mul_le (by omega), Nat.mul_left_comm]
    omega
  have hcentre : 2 * (q / ulp q) * 2 ^ (e - 52) = q := by
    rw [Nat.mul_right_comm, ← hu, Nat.mul_comm, Nat.div_mul_cancel hgrid]
  have hstep : ulp q * den = 2 * (2 ^ (e - 52) * den) := by rw [hu, Nat.mul_assoc]
  rw [← hpower, Nat.div_lt_iff_lt_mul (by omega), Nat.mul_left_comm] at hbefore
  have hround := roundToGrid_eq hden hhalf (k := 2 * (q / ulp q))
  rw [hcentre] at hround
  exact hround (by omega) (by omega) fun hodd => by omega

/-- **What is near to a double is rounded to it.** -/
theorem roundToGrid_eq_self (h : Near q den candidate) (hden : 0 < den) (hgrid : OnGrid q)
    (hne : q ≠ 0) : roundToGrid candidate (4 * den) = q := by
  have hbelow := h.lt_two_pow hden hgrid
  rcases Nat.lt_or_ge (candidate / (4 * den)) (2 ^ q.log2) with hbefore | hreach
  · rcases Nat.lt_or_ge 52 q.log2 with hlarge | hsmall
    · exact h.roundToGrid_before_two_pow hden hgrid hne hlarge hbefore
    · refine h.roundToGrid_of_ulp hden hgrid ?_
      rw [ulp_eq_one hbelow hsmall, ulp_eq_one Nat.lt_log2_self hsmall]
  · exact h.roundToGrid_of_ulp hden hgrid (ulp_eq hreach hbelow)

end Near

end

/-! ## Lengths -/

theorem quantaPerOne_pos : 0 < quantaPerOne := by
  decide +kernel

section

variable {n k : Nat}

theorem decimalLength_le_iff (hk : 0 < k) : decimalLength n ≤ k ↔ n < 10 ^ k :=
  Nat.length_toDigits_le_iff (by decide) hk

theorem lt_decimalLength_iff (hn : n ≠ 0) : k < decimalLength n ↔ 10 ^ k ≤ n := by
  rcases Nat.eq_zero_or_pos k with rfl | hk
  · have hpos : 0 < decimalLength n := Nat.length_toDigits_pos
    simp only [Nat.pow_zero]
    omega
  · rw [← Nat.not_le, decimalLength_le_iff hk, Nat.not_lt]

theorem decimalLength_mul_ten_pow (hn : n ≠ 0) (k : Nat) :
    decimalLength (n * 10 ^ k) = decimalLength n + k := by
  have hpos : 0 < decimalLength n := Nat.length_toDigits_pos
  have hten : 0 < 10 ^ k := Nat.pow_pos (by decide)
  have hne : n * 10 ^ k ≠ 0 := Nat.mul_ne_zero hn (Nat.ne_of_gt hten)
  refine Nat.le_antisymm ?_ ?_
  · rw [decimalLength_le_iff (by omega), Nat.pow_add]
    exact Nat.mul_lt_mul_of_pos_right ((decimalLength_le_iff hpos).1 (Nat.le_refl _)) hten
  · have hlow : 10 ^ (decimalLength n - 1) ≤ n := (lt_decimalLength_iff hn).1 (by omega)
    have hlt := (lt_decimalLength_iff (k := decimalLength n - 1 + k) hne).2 (by
      rw [Nat.pow_add]
      exact Nat.mul_le_mul_right _ hlow)
    omega

end

namespace Magnitude

variable {m : Magnitude} {den candidate : Nat}

theorem near_of_absorbs (h : m.absorbs den candidate = true) : Near m.quanta den candidate := by
  simp only [absorbs, Nat.mul_assoc] at h
  by_cases hedge : 1 < ulp m.quanta ∧ m.quanta = 2 ^ m.quanta.log2
  · simp only [if_pos hedge] at h
    split at h
    · rw [decide_eq_true_eq] at h
      exact ⟨by omega, h.2, fun _ _ => h.1, fun hodd => by omega⟩
    · rw [decide_eq_true_eq] at h
      exact ⟨by omega, by omega, fun _ _ => by omega, fun _ => by omega⟩
  · simp only [if_neg hedge] at h
    split at h
    · rw [decide_eq_true_eq] at h
      exact ⟨h.1, h.2, fun hulp hpower => absurd ⟨hulp, hpower⟩ hedge, fun hodd => by omega⟩
    · rw [decide_eq_true_eq] at h
      exact ⟨by omega, by omega, fun hulp hpower => absurd ⟨hulp, hpower⟩ hedge, fun _ => h⟩

/-- A grid that is fine enough has a number in the interval of every magnitude. -/
theorem absorbs_of_near {step : Nat}
    (hlow : 2 * (4 * (m.quanta * den)) ≤ 2 * candidate + step)
    (hhigh : 2 * candidate ≤ 2 * (4 * (m.quanta * den)) + step)
    (hfine : step * 2 ^ (53 : Nat) < 4 * (m.quanta * den)) : m.absorbs den candidate = true := by
  have hbits : m.quanta < 2 ^ (53 : Nat) * ulp m.quanta := by
    refine Nat.lt_of_lt_of_le Nat.lt_log2_self ?_
    rw [ulp, ← Nat.pow_add]
    exact Nat.pow_le_pow_right (by decide) (by omega)
  have hwide : step < 4 * (ulp m.quanta * den) := by
    have hle := Nat.mul_le_mul_right den (Nat.le_of_lt hbits)
    rw [Nat.mul_assoc] at hle
    omega
  have hnarrow : 1 < ulp m.quanta → m.quanta = 2 ^ m.quanta.log2 →
      step < 2 * (ulp m.quanta * den) := by
    intro hulp hpower
    have hlarge : 52 ≤ m.quanta.log2 := by
      refine Nat.le_of_not_lt fun hlt => ?_
      rw [ulp, Nat.sub_eq_zero_of_le (Nat.le_of_lt hlt)] at hulp
      exact absurd hulp (by decide)
    have hexact : m.quanta = 2 ^ (52 : Nat) * ulp m.quanta := by
      rw [ulp, ← Nat.pow_add, Nat.add_sub_cancel' hlarge]
      exact hpower
    have heq := congrArg (· * den) hexact
    simp only [Nat.mul_assoc] at heq
    omega
  simp only [absorbs, Nat.mul_assoc]
  by_cases hedge : 1 < ulp m.quanta ∧ m.quanta = 2 ^ m.quanta.log2
  · have hstep := hnarrow hedge.1 hedge.2
    simp only [if_pos hedge]
    split <;> rw [decide_eq_true_eq] <;> omega
  · simp only [if_neg hedge]
    split <;> rw [decide_eq_true_eq] <;> omega

/-! ## The search -/

/-- The distance of neighbours on the grid of multiples of `10 ^ exponent`, in the scale of the
search. -/
def gridStep (exponent : Int) : Nat :=
  4 * quantaPerOne * 10 ^ (exponent + finestExponent).toNat

theorem gridStep_pos (exponent : Int) : 0 < gridStep exponent :=
  Nat.mul_pos (Nat.mul_pos (by decide) quantaPerOne_pos) (Nat.pow_pos (by decide))

theorem onDecimalGrid?_eq_some {e : Int} {d : Decimal} (h : m.onDecimalGrid? e = some d) :
    d.exponent = e ∧ m.absorbs (10 ^ finestExponent) (d.digits * gridStep e) = true := by
  rw [gridStep]
  simp only [onDecimalGrid?] at h
  generalize 4 * quantaPerOne * 10 ^ (e + finestExponent).toNat = step at *
  generalize (if roundHalfEven (4 * m.quanta * 10 ^ finestExponent) step = _ then _ else _ : Nat) =
    other at h
  split at h
  · cases h
    exact ⟨rfl, by assumption⟩
  · split at h
    · cases h
      exact ⟨rfl, by assumption⟩
    · cases h

theorem exists_onDecimalGrid {e : Int}
    (hfine : gridStep e * 2 ^ (53 : Nat) < 4 * (m.quanta * 10 ^ finestExponent)) :
    ∃ d, m.onDecimalGrid? e = some d := by
  have hnear := roundHalfEven_near (4 * m.quanta * 10 ^ finestExponent) (gridStep_pos e)
  rw [Nat.mul_assoc 4] at hnear
  have habsorbs := absorbs_of_near hnear.2 hnear.1 hfine
  rw [← Nat.mul_assoc 4, gridStep] at habsorbs
  simp only [onDecimalGrid?, habsorbs, if_true]
  exact ⟨_, rfl⟩

/-- The search stops at a grid that has a decimal, if there is one within its reach. -/
theorem searchGrids_spec {steps : Nat} {e : Int}
    (h : ∃ d, m.onDecimalGrid? (e - steps) = some d) :
    ∃ e', e - steps ≤ e' ∧ e' ≤ e ∧
      m.onDecimalGrid? e' = some (m.searchGrids (steps + 1) e) := by
  induction steps generalizing e with
  | zero =>
    obtain ⟨d, hd⟩ := h
    simp only [Int.natCast_zero, Int.sub_zero] at hd
    exact ⟨e, by omega, Int.le_refl e, by simp only [searchGrids, hd]⟩
  | succ steps ih =>
    rw [searchGrids]
    cases hd : m.onDecimalGrid? e with
    | some d => exact ⟨e, by omega, Int.le_refl e, hd⟩
    | none =>
      have hshift : e - (steps + 1 : Nat) = e - 1 - steps := by omega
      rw [hshift] at h
      obtain ⟨e', hlow, hhigh, he'⟩ := ih h
      exact ⟨e', by omega, by omega, he'⟩

/-- The magnitude on the finest grid that the search may need, as a whole number. -/
def leading (m : Magnitude) : Nat :=
  m.quanta * 10 ^ finestExponent / quantaPerOne

theorem leadingExponent_eq (m : Magnitude) :
    m.leadingExponent = (decimalLength m.leading : Int) - 1 - finestExponent :=
  rfl

theorem leading_mul_le (m : Magnitude) :
    m.leading * quantaPerOne ≤ m.quanta * 10 ^ finestExponent :=
  Nat.div_mul_le_self _ _

theorem quanta_mul_lt (m : Magnitude) :
    m.quanta * 10 ^ finestExponent < 10 ^ (650 : Nat) * quantaPerOne := by
  have hlimit : quantaLimit * 10 ^ finestExponent ≤ 10 ^ (650 : Nat) * quantaPerOne := by
    decide +kernel
  exact Nat.lt_of_lt_of_le (Nat.mul_lt_mul_of_pos_right m.lt_limit (Nat.pow_pos (by decide)))
    hlimit

/-- There are more than seventeen digits in front of the finest grid, and at most 650. -/
theorem leading_bounds (hne : m.quanta ≠ 0) :
    10 ^ (17 : Nat) ≤ m.leading ∧ m.leading < 10 ^ (650 : Nat) := by
  have hfine : 10 ^ (17 : Nat) * quantaPerOne ≤ 10 ^ finestExponent := by decide +kernel
  constructor
  · rw [leading, Nat.le_div_iff_mul_le quantaPerOne_pos]
    exact Nat.le_trans hfine (Nat.le_mul_of_pos_left _ (Nat.pos_of_ne_zero hne))
  · rw [leading, Nat.div_lt_iff_lt_mul quantaPerOne_pos]
    exact m.quanta_mul_lt

theorem exists_decimalLength_leading (hne : m.quanta ≠ 0) :
    ∃ k, decimalLength m.leading = k + 18 ∧ k ≤ 632 ∧ 10 ^ (k + 17) ≤ m.leading := by
  obtain ⟨hlow, hhigh⟩ := leading_bounds hne
  have hlong : ¬ decimalLength m.leading ≤ 17 := by
    rw [decimalLength_le_iff (by decide), Nat.not_lt]
    exact hlow
  have hshort := (decimalLength_le_iff (by decide)).2 hhigh
  refine ⟨decimalLength m.leading - 18, by omega, by omega, ?_⟩
  rw [← Nat.not_lt, ← decimalLength_le_iff (by omega)]
  omega

theorem leadingExponent_bounds (hne : m.quanta ≠ 0) :
    -324 ≤ m.leadingExponent ∧ m.leadingExponent ≤ 308 := by
  obtain ⟨k, hlength, hk, -⟩ := exists_decimalLength_leading hne
  have hfinest : (finestExponent : Int) = 341 := rfl
  rw [leadingExponent_eq, hlength]
  omega

/-- Sixteen digits behind the leading one, the grid is fine enough. -/
theorem gridStep_leadingExponent (hne : m.quanta ≠ 0) :
    gridStep (m.leadingExponent - (16 : Nat)) * 2 ^ (53 : Nat) <
      4 * (m.quanta * 10 ^ finestExponent) := by
  obtain ⟨k, hlength, -, hleading⟩ := exists_decimalLength_leading hne
  have hexponent : (m.leadingExponent - (16 : Nat) + finestExponent).toNat = k + 1 := by
    rw [leadingExponent_eq, hlength]
    omega
  have hsplit : gridStep (m.leadingExponent - (16 : Nat)) * 10 ^ (16 : Nat) =
      4 * (10 ^ (k + 17) * quantaPerOne) := by
    rw [gridStep, hexponent, Nat.mul_assoc, ← Nat.pow_add, Nat.mul_assoc, Nat.mul_comm quantaPerOne]
  have hle := Nat.mul_le_mul_right quantaPerOne hleading
  have hquotient := leading_mul_le m
  have hpos := gridStep_pos (m.leadingExponent - (16 : Nat))
  omega

/-- **The search does not come back empty-handed**: the grid of the seventeenth digit is fine
enough. -/
theorem exists_onDecimalGrid_shortest (hne : m.quanta ≠ 0) :
    ∃ e, m.leadingExponent - (16 : Nat) ≤ e ∧ e ≤ m.leadingExponent ∧
      m.onDecimalGrid? e = some m.shortest := by
  rw [shortest, if_neg hne]
  exact searchGrids_spec (exists_onDecimalGrid (gridStep_leadingExponent hne))

end Magnitude

/-! ## Reading decimals -/

section

variable {num den num' den' n : Nat} {m : Magnitude}

theorem round?_eq_some_iff :
    Magnitude.round? num den = some m ↔ roundToGrid num den = m.quanta := by
  obtain ⟨quanta, hgrid, hlt⟩ := m
  unfold Magnitude.round?
  by_cases h : roundToGrid num den < quantaLimit
  · rw [dif_pos h, Option.some.injEq, Magnitude.mk.injEq]
  · rw [dif_neg h]
    constructor
    · intro hnone
      cases hnone
    · rintro rfl
      exact absurd hlt h

theorem ofQuotient_congr (negative : Bool) (h : roundToGrid num den = roundToGrid num' den') :
    Double.ofQuotient negative num den = Double.ofQuotient negative num' den' := by
  have hround : Magnitude.round? num den = Magnitude.round? num' den' := by
    refine Option.ext fun m => ?_
    rw [round?_eq_some_iff, round?_eq_some_iff, h]
  unfold Double.ofQuotient
  rw [hround]

theorem ofQuotient_eq_finite (negative : Bool) (h : roundToGrid num den = m.quanta) :
    Double.ofQuotient negative num den = .finite negative m := by
  unfold Double.ofQuotient
  rw [round?_eq_some_iff.2 h]

/-- The quotient that a decimal is the rounding of, written with a power of ten that makes both of
its sides whole. -/
theorem decimal_quotient (negative : Bool) (n : Nat) {e : Int} {k : Nat} (he : -(k : Int) ≤ e) :
    (if 0 ≤ e then Double.ofQuotient negative (n * 10 ^ e.toNat * quantaPerOne) 1
      else Double.ofQuotient negative (n * quantaPerOne) (10 ^ (-e).toNat)) =
    Double.ofQuotient negative (n * quantaPerOne * 10 ^ (e + k).toNat) (10 ^ k) := by
  split
  · have hpow : (e + k).toNat = e.toNat + k := by omega
    refine ofQuotient_congr negative ?_
    rw [← roundToGrid_mul_mul (c := 10 ^ k) (Nat.pow_pos (by decide)), Nat.mul_one, hpow,
      Nat.pow_add, Nat.mul_comm (10 ^ k), Nat.mul_right_comm n, Nat.mul_assoc (n * quantaPerOne)]
  · have hpow : k = (e + k).toNat + (-e).toNat := by omega
    refine ofQuotient_congr negative ?_
    rw [← roundToGrid_mul_mul (c := 10 ^ (e + k).toNat) (Nat.pow_pos (by decide)), ← Nat.pow_add,
      ← hpow, Nat.mul_comm]

theorem ofDecimal_eq (negative : Bool) {n : Nat} (hn : n ≠ 0) {e : Int} {k : Nat}
    (he : -(k : Int) ≤ e) :
    Double.ofDecimal negative n e =
      if 400 < e + decimalLength n then .infinite negative
      else if e + decimalLength n < -400 then .finite negative .zero
      else Double.ofQuotient negative (n * quantaPerOne * 10 ^ (e + k).toNat) (10 ^ k) := by
  rw [← decimal_quotient negative n he, Double.ofDecimal]
  simp only [if_neg hn]

theorem ofDecimal_zero (negative : Bool) (e : Int) :
    Double.ofDecimal negative 0 e = .finite negative .zero := by
  simp only [Double.ofDecimal, if_true]

/-- Zeros at the end of the digits count like the exponent. -/
theorem ofDecimal_mul_ten_pow (negative : Bool) (n k : Nat) (e : Int) :
    Double.ofDecimal negative (n * 10 ^ k) e = Double.ofDecimal negative n (e + k) := by
  by_cases hn : n = 0
  · rw [hn, Nat.zero_mul, ofDecimal_zero, ofDecimal_zero]
  · have hne : n * 10 ^ k ≠ 0 := Nat.mul_ne_zero hn (Nat.ne_of_gt (Nat.pow_pos (by decide)))
    have hscale : e + (decimalLength n + k : Nat) = e + k + decimalLength n := by omega
    have hpow : (e + k + (-e).toNat).toNat = k + (e + (-e).toNat).toNat := by omega
    rw [ofDecimal_eq negative hne (k := (-e).toNat) (by omega),
      ofDecimal_eq negative hn (k := (-e).toNat) (by omega), decimalLength_mul_ten_pow hn, hscale,
      hpow, Nat.pow_add, Nat.mul_right_comm n, Nat.mul_assoc (n * quantaPerOne)]

theorem roundToGrid_zero (den : Nat) : roundToGrid 0 den = 0 := by
  simp [roundToGrid, roundHalfEven]

/-- A decimal in the interval of a magnitude is not beyond what is read digit by digit. -/
theorem scale_le_of_absorbs {e : Int} (hn : n ≠ 0) (he : -(Magnitude.finestExponent : Int) ≤ e)
    (h : m.absorbs (10 ^ Magnitude.finestExponent) (n * Magnitude.gridStep e) = true)
    (hne : m.quanta ≠ 0) : e + decimalLength n ≤ 310 := by
  have hvalue : n * Magnitude.gridStep e =
      4 * (n * 10 ^ (e + Magnitude.finestExponent).toNat * quantaPerOne) := by
    rw [Magnitude.gridStep, Nat.mul_assoc 4, Nat.mul_left_comm, Nat.mul_comm quantaPerOne,
      Nat.mul_assoc]
  have hle : n * 10 ^ (e + Magnitude.finestExponent).toNat * quantaPerOne ≤
      2 * (m.quanta * 10 ^ Magnitude.finestExponent) := by
    have hhigh := (Magnitude.near_of_absorbs h).high
    have hulp := Nat.mul_le_mul_right (10 ^ Magnitude.finestExponent) (ulp_le hne)
    omega
  have hlt : n * 10 ^ (e + Magnitude.finestExponent).toNat * quantaPerOne <
      10 ^ 651 * quantaPerOne :=
    Nat.lt_of_le_of_lt hle (Nat.lt_of_lt_of_le
      (Nat.mul_lt_mul_of_pos_left m.quanta_mul_lt (by decide)) (by decide +kernel))
  have hdigits := (Nat.mul_lt_mul_right quantaPerOne_pos).1 hlt
  have hlength := (decimalLength_le_iff (by decide)).2 hdigits
  rw [decimalLength_mul_ten_pow hn] at hlength
  have hfinest : (Magnitude.finestExponent : Int) = 341 := rfl
  clear hdigits hlt hle
  omega

/-- **The shortest decimal reads back** as the double that it was made for. -/
theorem ofDecimal_shortest (m : Magnitude) :
    Double.ofDecimal false m.shortest.digits m.shortest.exponent = .finite false m := by
  by_cases hne : m.quanta = 0
  · obtain ⟨quanta, hgrid, hlt⟩ := m
    subst hne
    rfl
  · obtain ⟨e, hlow, hhigh, hgrid⟩ := Magnitude.exists_onDecimalGrid_shortest hne
    obtain ⟨hexponent, habsorbs⟩ := Magnitude.onDecimalGrid?_eq_some hgrid
    have hround := (Magnitude.near_of_absorbs habsorbs).roundToGrid_eq_self
      (Nat.pow_pos (by decide)) m.onGrid hne
    have hn : m.shortest.digits ≠ 0 := by
      intro hzero
      rw [hzero, Nat.zero_mul, roundToGrid_zero] at hround
      exact hne hround.symm
    have hlead := Magnitude.leadingExponent_bounds hne
    have hfinest : (Magnitude.finestExponent : Int) = 341 := rfl
    have he : -(Magnitude.finestExponent : Int) ≤ e := by omega
    have hscale := scale_le_of_absorbs hn he habsorbs hne
    rw [hexponent, ofDecimal_eq false hn he, if_neg (by omega), if_neg (by omega)]
    refine ofQuotient_eq_finite false ?_
    rw [← hround, ← roundToGrid_mul_mul (c := 4) (by decide), Magnitude.gridStep, Nat.mul_assoc 4,
      Nat.mul_left_comm m.shortest.digits 4, ← Nat.mul_assoc m.shortest.digits]

end

end ExprLang
