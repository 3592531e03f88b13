import ExprLang.Proofs.NearestDouble

/-!
# The recognisers of numeric texts

Texts are recognised as numbers in several places: by the test for numeric texts, by the coercions to
integers, to doubles and to either of them, and by `+`.  They are told apart by the empty text, which
only the coercions take for a number, and by integers of more than 4300 digits, which have a nearest
double but no integer.

* `IsShortInteger` — the integer texts that are converted.
* `exists_toLong_iff`, `exists_toDouble_iff`, `exists_toNumber_iff` — what the coercions accept.
* `roundsTo_of_toLong` — the double of a text is the one that its integer is rounded to.
* `RecognisersAgree`, `recognisers_agree` — all of this for every text, and the texts of numbers.
-/

namespace ExprLang

open Lexeme

namespace Value

/-- A sign and digits, not more of them than are converted. -/
def IsShortInteger (text : Text) : Prop :=
  ∃ sign digits, IsSign sign ∧ IsDigits digits ∧ text = sign ++ digits ∧ digits.length ≤ 4300

section

variable {text sign digits : Text} {v : Value} {i : Int} {x : Double}

theorem exists_map_iff {ε α β : Type} {f : α → β} {result : Except ε α} :
    (∃ y, result.map f = .ok y) ↔ ∃ x, result = .ok x := by
  cases result <;> simp [Except.map]

/-! ## What is accepted -/

theorem isNumericString_iff :
    (string text).isNumericString = true ↔ text = [] ∨ IsNumeral text := by
  rw [isNumericString, Bool.or_eq_true, List.isEmpty_iff, numeral_isSome_iff]

theorem isClean_string_iff : (string text).isClean = true ↔ IsNumeral text :=
  numeral_isSome_iff

theorem exists_toDouble_iff :
    (∃ x, (string text).toDouble = .ok x) ↔ text = [] ∨ IsNumeral text := by
  rw [toDouble, ← numeral_isSome_iff]
  by_cases hempty : text = []
  · simp [hempty]
  · cases Numeral.ofText? text <;> simp [hempty]

/-- What is read as an integer numeral is digits behind a sign. -/
theorem integer_of_ofText? {n : IntegerNumeral} (h : IntegerNumeral.ofText? text = some n) :
    ∃ sign digits, IsSign sign ∧ IsDigits digits ∧ text = sign ++ digits := by
  obtain ⟨sign, hsign, htext⟩ := isSign_of_takeSign text
  obtain ⟨⟨hne, hall⟩, -⟩ := Option.ite_none_right_eq_some.1 h
  exact ⟨sign, _, hsign, ⟨hne, List.all_eq_true.1 hall⟩, htext⟩

/-- Digits behind a sign are the integer of these digits, if there are not too many of them. -/
theorem toLong_digits_eq_ok_iff (hsign : IsSign sign) (hdigits : IsDigits digits) :
    (string (sign ++ digits)).toLong = .ok i ↔
      digits.length ≤ 4300 ∧ Double.withSign (decide (sign = ['-'])) (digitsValue digits) = i := by
  have hlimit : digits.length ≤ 4300 ↔ digits.length ≤ digitLimit := Iff.rfl
  simp only [toLong_digits hsign hdigits, Double.withSign, decide_eq_true_eq, hlimit]
  split
  · rename_i hshort
    rw [Except.ok.injEq, and_iff_right hshort]
  · rename_i hlong
    simp [hlong]

/-- A text that coerces to an integer is empty or a short integer. -/
theorem shortInteger_of_toLong (h : (string text).toLong = .ok i) :
    text = [] ∨ IsShortInteger text := by
  by_cases hempty : text = []
  · exact .inl hempty
  · have hsome : ∃ n, IntegerNumeral.ofText? text = some n := by
      rw [toLong, if_neg hempty] at h
      cases hnumeral : IntegerNumeral.ofText? text with
      | none => simp [hnumeral] at h
      | some n => exact ⟨n, rfl⟩
    obtain ⟨n, hn⟩ := hsome
    obtain ⟨sign, digits, hsign, hdigits, rfl⟩ := integer_of_ofText? hn
    have hlimit := ((toLong_digits_eq_ok_iff hsign hdigits).1 h).1
    exact .inr ⟨sign, digits, hsign, hdigits, rfl, hlimit⟩

theorem exists_toLong_iff :
    (∃ i, (string text).toLong = .ok i) ↔ text = [] ∨ IsShortInteger text := by
  constructor
  · rintro ⟨i, h⟩
    exact shortInteger_of_toLong h
  · rintro (rfl | ⟨sign, digits, hsign, hdigits, rfl, hlimit⟩)
    · exact ⟨0, rfl⟩
    · exact ⟨_, (toLong_digits_eq_ok_iff hsign hdigits).2 ⟨hlimit, rfl⟩⟩

theorem countP_integer (hsign : IsSign sign) (hdigits : IsDigits digits) :
    (sign ++ digits).countP Char.isDigit = digits.length := by
  have hnone : sign.countP Char.isDigit = 0 := by
    rcases hsign with rfl | rfl | rfl <;> decide
  rw [List.countP_append, hnone, List.countP_eq_length.2 hdigits.2, Nat.zero_add]

/-- A double is read from any numeric text with a mark of one, and an integer from the others unless
they have too many digits. -/
theorem exists_toNumber_iff : (∃ v, (string text).toNumber = .ok v) ↔
    (text = [] ∨ IsNumeral text) ∧
      (LooksFloating (string text) ∨ text.countP Char.isDigit ≤ 4300) := by
  -- The marks of a double alone decide which coercion is used.
  by_cases hfloating : (string text).isFloating = true
  · have hnumber : (∃ v, (string text).toNumber = .ok v) ↔
        ∃ x, (string text).toDouble = .ok x := by
      rw [toNumber, if_pos hfloating, exists_map_iff]
    rw [hnumber, exists_toDouble_iff]
    exact (and_iff_left (.inl (isFloating_iff.1 hfloating))).symm
  · have hnumber : (∃ v, (string text).toNumber = .ok v) ↔ ∃ i, (string text).toLong = .ok i := by
      rw [toNumber, if_neg hfloating, exists_map_iff]
    rw [hnumber, exists_toLong_iff, or_iff_right (mt isFloating_iff.2 hfloating)]
    constructor
    · rintro (rfl | ⟨sign, digits, hsign, hdigits, rfl, hlimit⟩)
      · exact ⟨.inl rfl, by simp⟩
      · rw [countP_integer hsign hdigits]
        exact ⟨.inr (isNumeral_digits hsign hdigits), hlimit⟩
    · rintro ⟨rfl | hnumeral, hlimit⟩
      · exact .inl rfl
      · obtain ⟨sign, digits, hsign, hdigits, rfl⟩ :=
          integer_of_isNumeral hnumeral (Bool.eq_false_iff.2 hfloating)
        rw [countP_integer hsign hdigits] at hlimit
        exact .inr ⟨sign, digits, hsign, hdigits, rfl, hlimit⟩

/-! ## Values -/

/-- Digits behind a sign are a decimal without an exponent. -/
theorem toDouble_digits (hsign : IsSign sign) (hdigits : IsDigits digits) :
    (string (sign ++ digits)).toDouble =
      .ok (Double.ofDecimal (decide (sign = ['-'])) (digitsValue digits) 0) := by
  have htext := ofText?_without_point hsign hdigits .absent
  rw [List.append_nil] at htext
  rw [toDouble, if_neg (isNumeral_digits hsign hdigits).ne_nil, htext]
  simp [Numeral.toDouble]

/-- The double of a text is the one that its integer is rounded to. -/
theorem roundsTo_of_toLong (hlong : (string text).toLong = .ok i)
    (hdouble : (string text).toDouble = .ok x) : Double.RoundsTo i x := by
  rcases shortInteger_of_toLong hlong with rfl | ⟨sign, digits, hsign, hdigits, rfl, hlimit⟩
  · cases hlong
    cases hdouble
    exact Double.roundsTo_ofDecimal false 0
  · obtain ⟨-, rfl⟩ := (toLong_digits_eq_ok_iff hsign hdigits).1 hlong
    rw [toDouble_digits hsign hdigits, Except.ok.injEq] at hdouble
    rw [← hdouble]
    exact Double.roundsTo_ofDecimal _ _

/-- The text of a number is read as that number, of the same kind. -/
theorem Writable.toNumber_toText (h : Writable v) :
    ∃ text, v.toText = .ok text ∧ (string text).toNumber = .ok v := by
  obtain ⟨text, htext⟩ := h.exists_text
  have hreads := readsAs_of_represents h (.text htext)
  refine ⟨text, htext, ?_⟩
  rw [toNumber, hreads.isFloating]
  cases h with
  | @long i _ =>
    have hlong : (string text).toLong = .ok i := hreads.toLong rfl
    rw [hlong]
    rfl
  | double negative m =>
    have hdouble : (string text).toDouble = .ok (.finite negative m) := hreads.toDouble rfl
    rw [hdouble]
    rfl

end

/-- What the recognisers of numbers make of a text. -/
structure RecognisersAgree (text : Text) : Prop where
  /-- Apart from the empty text, the numeric texts are those of the grammar. -/
  numeric : (string text).isNumericString = true ↔ text = [] ∨ IsNumeral text
  toDouble : (∃ x, (string text).toDouble = .ok x) ↔ (string text).isNumericString = true
  toLong : (∃ i, (string text).toLong = .ok i) ↔ text = [] ∨ IsShortInteger text
  numeric_of_toLong : (∃ i, (string text).toLong = .ok i) → (string text).isNumericString = true
  toNumber : (∃ v, (string text).toNumber = .ok v) ↔ (string text).isNumericString = true ∧
    (('.' ∈ text ∨ 'e' ∈ text ∨ 'E' ∈ text) ∨ text.countP Char.isDigit ≤ 4300)
  /-- `+` takes the text for a number. -/
  clean : (string text).isClean = true ↔ (string text).isNumericString = true ∧ text ≠ []
  rounded : ∀ i x, (string text).toLong = .ok i → (string text).toDouble = .ok x →
    Double.RoundsTo i x

/-- **The recognisers of numeric texts agree**, on every text.  And the text of a number, be it an
integer of at most 4300 digits or a finite double, is read as that number. -/
theorem recognisers_agree : (∀ text, RecognisersAgree text) ∧
    ∀ v, Writable v → ∃ text, v.toText = .ok text ∧ (string text).toNumber = .ok v := by
  refine ⟨fun text => ?_, fun v hv => hv.toNumber_toText⟩
  constructor
  case numeric => exact isNumericString_iff
  case toDouble => rw [exists_toDouble_iff, isNumericString_iff]
  case toLong => exact exists_toLong_iff
  case numeric_of_toLong =>
    rw [exists_toLong_iff, isNumericString_iff]
    rintro (hempty | ⟨sign, digits, hsign, hdigits, rfl, -⟩)
    · exact .inl hempty
    · exact .inr (isNumeral_digits hsign hdigits)
  case toNumber =>
    rw [exists_toNumber_iff, isNumericString_iff]
    rfl
  case clean =>
    rw [isClean_string_iff, isNumericString_iff]
    exact ⟨fun h => ⟨.inr h, h.ne_nil⟩, fun ⟨h, hne⟩ => h.resolve_left hne⟩
  case rounded => exact fun i x => roundsTo_of_toLong

/-- The first integer that is no double lies half way between two of them. -/
theorem recognisers_agree_half_way :
    let text := "-9007199254740993".toList
    let x := Double.finite true ⟨2 ^ (53 : Nat) * quantaPerOne, by decide +kernel, by decide +kernel⟩
    let written := "-9007199254740992.0".toList
    (string text).toLong = .ok (-9007199254740993) ∧ (string text).toDouble = .ok x ∧
      Double.RoundsTo (-9007199254740993) x ∧
      Writable (double x) ∧ (double x).toText = .ok written ∧
      (string written).toNumber = .ok (double x) := by
  intro text x written
  have hlong : (string text).toLong = .ok (-9007199254740993) := by decide +kernel
  have hdouble : (string text).toDouble = .ok x := by decide +kernel
  have hwritable : Writable (double x) := .double _ _
  have hwritten : (double x).toText = .ok written := by decide +kernel
  obtain ⟨written', htext, hread⟩ := recognisers_agree.2 (double x) hwritable
  rw [hwritten, Except.ok.injEq] at htext
  exact ⟨hlong, hdouble, (recognisers_agree.1 text).rounded _ _ hlong hdouble, hwritable, hwritten,
    htext ▸ hread⟩

end Value

end ExprLang
