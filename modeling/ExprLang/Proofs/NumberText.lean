import ExprLang.Proofs.LexicalGrammar
import ExprLang.Proofs.ShortestDecimal

/-!
# The text of numbers

The text that a number is written as is a number of the lexical grammar, with that number as its
value.

* `digitsValue_append`, `digitsValue_ofNat` — the value of digits.
* `isNumber_ofInt` — integers that are neither negative nor too long.
* `isNumber_toText` — decimals, in each of their layouts.
* `isNumber_shortest` — doubles.
-/

namespace ExprLang

/-! ## Digits -/

section

variable {s t : Text}

theorem digitsValue_append (s t : Text) :
    digitsValue (s ++ t) = digitsValue s * 10 ^ t.length + digitsValue t := by
  change Nat.ofDigitChars 10 (s ++ t) 0 =
    Nat.ofDigitChars 10 s 0 * 10 ^ t.length + Nat.ofDigitChars 10 t 0
  rw [Nat.ofDigitChars_append, Nat.ofDigitChars_eq_ofDigitChars_zero, Nat.mul_comm]

theorem digitsValue_ofNat (n : Nat) : digitsValue (Text.ofNat n) = n :=
  Nat.ofDigitChars_ten_toDigits

theorem digitsValue_zeros (k : Nat) : digitsValue (List.replicate k '0') = 0 := by
  change Nat.ofDigitChars 10 (List.replicate k '0') 0 = 0
  rw [Nat.ofDigitChars_replicate_zero, Nat.mul_zero]

theorem digitsValue_append_zeros (s : Text) (k : Nat) :
    digitsValue (s ++ List.replicate k '0') = digitsValue s * 10 ^ k := by
  rw [digitsValue_append, digitsValue_zeros, List.length_replicate, Nat.add_zero]

theorem digitsValue_zeros_append (k : Nat) (s : Text) :
    digitsValue (List.replicate k '0' ++ s) = digitsValue s := by
  rw [digitsValue_append, digitsValue_zeros, Nat.zero_mul, Nat.zero_add]

theorem isDigits_ofNat (n : Nat) : IsDigits (Text.ofNat n) :=
  ⟨Nat.toDigits_ne_nil, fun _ hc => Nat.isDigit_of_mem_toDigits (by decide) (by decide) hc⟩

theorem IsDigits.append (hs : IsDigits s) (ht : ∀ c ∈ t, c.isDigit = true) : IsDigits (s ++ t) := by
  refine ⟨List.append_ne_nil_of_left_ne_nil hs.1 t, fun c hc => ?_⟩
  exact (List.mem_append.1 hc).elim (hs.2 c) (ht c)

theorem isDigit_of_mem_zeros {k : Nat} {c : Char} (h : c ∈ List.replicate k '0') :
    c.isDigit = true := by
  rw [List.eq_of_mem_replicate h]
  decide

/-- A text without the zeros at its end, and those zeros. -/
theorem exists_zeros_behind (s : Text) :
    ∃ k, s = (s.reverse.dropWhile (· = '0')).reverse ++ List.replicate k '0' := by
  have hsplit := List.takeWhile_append_dropWhile (p := (· = '0')) (l := s.reverse)
  have hzeros : s.reverse.takeWhile (· = '0') =
      List.replicate (s.reverse.takeWhile (· = '0')).length '0' := by
    refine List.eq_replicate_iff.2 ⟨rfl, fun c hc => ?_⟩
    simpa using List.all_eq_true.1 List.all_takeWhile c hc
  refine ⟨(s.reverse.takeWhile (· = '0')).length, ?_⟩
  rw [← List.reverse_replicate, ← hzeros, ← List.reverse_append, hsplit, List.reverse_reverse]

end

/-! ## Integers -/

/-- An integer is written as a number with its value. -/
theorem isNumber_ofInt {i : Int} (hsign : 0 ≤ i) (hlimit : i.natAbs < 10 ^ digitLimit) :
    IsNumber (Text.ofInt i) (.long i) := by
  have hvalue : (digitsValue (Text.ofNat i.natAbs) : Int) = i := by
    rw [digitsValue_ofNat]
    omega
  have hlength : (Text.ofNat i.natAbs).length ≤ digitLimit :=
    (Nat.length_toDigits_le_iff (by decide) (by decide)).2 hlimit
  have hnumber := IsNumber.integer (isDigits_ofNat i.natAbs) hlength
  rw [hvalue] at hnumber
  rwa [Text.ofInt, if_neg (by omega)]

/-! ## Doubles -/

section

variable {whole fraction digits exponent : Text} {x : Int}

/-- A number by its parts, with the digits `v` and zeros behind them. -/
theorem isNumber_of_parts (hwhole : IsDigits whole) (hfraction : Fraction fraction digits)
    (hexponent : Exponent exponent x) (hne : fraction ++ exponent ≠ []) {v k : Nat} {scale : Int}
    (hvalue : digitsValue (whole ++ digits) = v * 10 ^ k) (hscale : x - digits.length + k = scale) :
    IsNumber (whole ++ fraction ++ exponent) (.double (Double.ofDecimal false v scale)) := by
  have hnumber := IsNumber.double hwhole hfraction hexponent hne
  rwa [Numeral.toDouble, hvalue, ofDecimal_mul_ten_pow, hscale] at hnumber

/-- An exponent is padded to two digits, which does not change its value. -/
theorem exponentText_eq (i : Int) : ∃ digits, IsDigits digits ∧ digitsValue digits = i.natAbs ∧
    Decimal.exponentText i = (if i < 0 then '-' else '+') :: digits := by
  have hdigits := isDigits_ofNat i.natAbs
  by_cases hshort : (Text.ofNat i.natAbs).length < 2
  · refine ⟨'0' :: Text.ofNat i.natAbs, ?_, ?_, ?_⟩
    · exact IsDigits.append (s := ['0']) ⟨by simp, by simp⟩ hdigits.2
    · exact (digitsValue_zeros_append 1 _).trans (digitsValue_ofNat _)
    · simp only [Decimal.exponentText, if_pos hshort]
  · refine ⟨Text.ofNat i.natAbs, hdigits, digitsValue_ofNat _, ?_⟩
    simp only [Decimal.exponentText, if_neg hshort]

theorem exponent_exponentText (i : Int) : Exponent ('e' :: Decimal.exponentText i) i := by
  obtain ⟨digits, hdigits, hvalue, htext⟩ := exponentText_eq i
  rw [htext]
  by_cases hsign : i < 0
  · have hexponent : Exponent ('e' :: '-' :: digits) _ := .minus (.inl rfl) hdigits
    have hi : -((i.natAbs : Nat) : Int) = i := by omega
    rw [hvalue, hi] at hexponent
    rwa [if_pos hsign]
  · have hexponent : Exponent ('e' :: '+' :: digits) _ := .plus (.inl rfl) hdigits
    have hi : ((i.natAbs : Nat) : Int) = i := by omega
    rw [hvalue, hi] at hexponent
    rwa [if_neg hsign]

/-! ### The layouts

The digits `sig` with the exponent `scale` in each of the layouts. -/

/-- Digits with a point behind the first one, unless it is the only one. -/
def pointed : Text → Text
  | [] => []
  | [first] => [first]
  | first :: rest => first :: '.' :: rest

section

variable {sig : Text} {scale : Int}

/-- With an exponent. -/
theorem isNumber_scientific (hsig : IsDigits sig) {e : Int} (he : e = sig.length + scale - 1) :
    IsNumber (pointed sig ++ 'e' :: Decimal.exponentText e)
      (.double (Double.ofDecimal false (digitsValue sig) scale)) := by
  have hexponent := exponent_exponentText e
  match sig, hsig with
  | [first], hsig =>
    exact isNumber_of_parts hsig .absent hexponent (by simp) (k := 0) (by simp)
      (by simp at he ⊢; omega)
  | first :: second :: rest, hsig =>
    have hwhole : IsDigits [first] := ⟨by simp, by simpa using hsig.2 first (by simp)⟩
    have hrest : IsDigits (second :: rest) :=
      ⟨by simp, fun c hc => hsig.2 c (List.mem_cons_of_mem _ hc)⟩
    exact isNumber_of_parts hwhole (.point hrest) hexponent (by simp) (k := 0) (by simp)
      (by simp at he ⊢; omega)

/-- With zeros behind the point. -/
theorem isNumber_small (hsig : IsDigits sig) {k : Nat} (hk : -(k : Int) = sig.length + scale) :
    IsNumber ('0' :: '.' :: List.replicate k '0' ++ sig)
      (.double (Double.ofDecimal false (digitsValue sig) scale)) := by
  have hwhole : IsDigits ['0'] := ⟨by simp, by simp⟩
  have hdigits : IsDigits (List.replicate k '0' ++ sig) := by
    refine ⟨by simp [hsig.1], fun c hc => ?_⟩
    exact (List.mem_append.1 hc).elim isDigit_of_mem_zeros (hsig.2 c)
  have hvalue : digitsValue (['0'] ++ (List.replicate k '0' ++ sig)) =
      digitsValue sig * 10 ^ 0 := by
    rw [Nat.pow_zero, Nat.mul_one]
    exact digitsValue_zeros_append (k + 1) sig
  have hscale : (0 : Int) - (List.replicate k '0' ++ sig).length + (0 : Nat) = scale := by
    rw [List.length_append, List.length_replicate]
    omega
  have hnumber := isNumber_of_parts hwhole (.point hdigits) .absent (by simp) hvalue hscale
  simpa using hnumber

/-- With zeros in front of the point. -/
theorem isNumber_whole (hsig : IsDigits sig) {k : Nat} (hk : (k : Int) = scale) :
    IsNumber (sig ++ List.replicate k '0' ++ ['.', '0'])
      (.double (Double.ofDecimal false (digitsValue sig) scale)) := by
  have hwhole := hsig.append (t := List.replicate k '0') fun c hc => isDigit_of_mem_zeros hc
  have hdigits : IsDigits ['0'] := ⟨by simp, by simp⟩
  have hvalue : digitsValue (sig ++ List.replicate k '0' ++ ['0']) =
      digitsValue sig * 10 ^ (k + 1) := by
    rw [← digitsValue_append_zeros, List.replicate_succ', List.append_assoc]
  have hscale : (0 : Int) - ['0'].length + (k + 1 : Nat) = scale := by
    rw [List.length_singleton]
    omega
  have hnumber := isNumber_of_parts hwhole (.point hdigits) .absent (by simp) hvalue hscale
  simpa using hnumber

/-- With the point between the digits. -/
theorem isNumber_mixed (hsig : IsDigits sig) {k : Nat} (hk : (k : Int) = sig.length + scale)
    (hpos : 0 < k) (hlt : k < sig.length) :
    IsNumber (sig.take k ++ '.' :: sig.drop k)
      (.double (Double.ofDecimal false (digitsValue sig) scale)) := by
  have hwhole : IsDigits (sig.take k) := by
    refine ⟨fun hnil => ?_, fun c hc => hsig.2 c (List.mem_of_mem_take hc)⟩
    have := congrArg List.length hnil
    rw [List.length_take, List.length_nil] at this
    omega
  have hdigits : IsDigits (sig.drop k) := by
    refine ⟨fun hnil => ?_, fun c hc => hsig.2 c (List.mem_of_mem_drop hc)⟩
    have := congrArg List.length hnil
    rw [List.length_drop, List.length_nil] at this
    omega
  have hvalue : digitsValue (sig.take k ++ sig.drop k) = digitsValue sig * 10 ^ 0 := by
    rw [List.take_append_drop, Nat.pow_zero, Nat.mul_one]
  have hscale : (0 : Int) - (sig.drop k).length + (0 : Nat) = scale := by
    rw [List.length_drop]
    omega
  have hnumber := isNumber_of_parts hwhole (.point hdigits) .absent (by simp) hvalue hscale
  simpa using hnumber

end

/-- A decimal is written as a number with its value. -/
theorem isNumber_toText (d : Decimal) :
    IsNumber d.toText (.double (Double.ofDecimal false d.digits d.exponent)) := by
  by_cases hd : d.digits = 0
  · have hdigits : IsDigits ['0'] := ⟨by simp, by simp⟩
    have hnumber := isNumber_of_parts hdigits (.point hdigits) .absent (by simp) (v := 0) (k := 0)
      rfl rfl
    rw [ofDecimal_zero] at hnumber
    rw [Decimal.toText, if_pos hd, hd, ofDecimal_zero]
    exact hnumber
  obtain ⟨k, hzeros⟩ := exists_zeros_behind (Text.ofNat d.digits)
  change Text.ofNat d.digits = d.significant ++ List.replicate k '0' at hzeros
  have hvalue : d.digits = digitsValue d.significant * 10 ^ k := by
    rw [← digitsValue_append_zeros, ← hzeros, digitsValue_ofNat]
  have hlength : decimalLength d.digits = d.significant.length + k := by
    rw [decimalLength, hzeros, List.length_append, List.length_replicate]
  have hsig : IsDigits d.significant := by
    refine ⟨fun hnil => hd ?_, fun c hc => ?_⟩
    · rw [hvalue, hnil]
      exact Nat.zero_mul _
    · refine (isDigits_ofNat d.digits).2 c ?_
      rw [hzeros]
      exact List.mem_append_left _ hc
  have hscale : Double.ofDecimal false d.digits d.exponent =
      Double.ofDecimal false (digitsValue d.significant) (d.exponent + k) := by
    rw [← ofDecimal_mul_ten_pow, ← hvalue]
  rw [hscale]
  simp only [Decimal.toText, if_neg hd, hlength]
  split
  · exact isNumber_scientific hsig (by omega)
  · split
    · exact isNumber_small hsig (by omega)
    · split
      · exact isNumber_whole hsig (by omega)
      · exact isNumber_mixed hsig (by omega) (by omega) (by omega)

/-- A double is written as a number with its value. -/
theorem isNumber_shortest (m : Magnitude) :
    IsNumber m.shortest.toText (.double (.finite false m)) := by
  rw [← ofDecimal_shortest m]
  exact isNumber_toText m.shortest

end

end ExprLang
