import ExprLang.Eval.Operators
import ExprLang.Proofs.DoubleRange
import ExprLang.Proofs.LexemeReading

/-!
# Sums and joined texts

With a text on one of its sides `+` joins the texts of its operands, unless both operands pass for
numbers: null, integers, doubles and numeric texts do.  Three readers of texts take part in this,
the one that tells numeric texts, the one that reads integers and the one that reads doubles, and
they agree on every text.

* `IsNumeral` — the numeric texts; `numeral_isSome_iff` — they are those that are read as numerals.
* `Clean` — the operands that pass for numbers.
* `toLong_of_clean`, `toDouble_of_clean` — when they do not coerce to a number after all.
* `AddsOrJoins` — what `+` does with its operands; `adds_or_joins` — it does so if one of them is a
  text.
-/

namespace ExprLang

open Lexeme

/-! ## Numeric texts -/

/-- A sign, which may be absent. -/
def IsSign (text : Text) : Prop :=
  text = [] ∨ text = ['+'] ∨ text = ['-']

/-- Digits with a point among them, in front of them or behind them, or without one. -/
inductive Mantissa : Text → Prop where
  | integer {whole : Text} : IsDigits whole → Mantissa whole
  | pointed {whole fraction : Text} : IsDigits whole → (∀ c ∈ fraction, c.isDigit = true) →
    Mantissa (whole ++ '.' :: fraction)
  | fraction {fraction : Text} : IsDigits fraction → Mantissa ('.' :: fraction)

/-- A numeric text: a sign, digits with a point or without one, and an exponent. -/
def IsNumeral (text : Text) : Prop :=
  ∃ sign mantissa exponent e, IsSign sign ∧ Mantissa mantissa ∧ Exponent exponent e ∧
    text = sign ++ mantissa ++ exponent

section

variable {text sign body digits mantissa exponent rest : Text} {e : Int}

theorem takeSign_append (hsign : IsSign sign) (hbody : Stops (fun c => c = '+' || c = '-') body) :
    takeSign (sign ++ body) = (decide (sign = ['-']), body) := by
  rcases hsign with rfl | rfl | rfl
  · cases body with
    | nil => rfl
    | cons c body =>
      have hc := hbody c rfl
      simp only [Bool.or_eq_false_iff, decide_eq_false_iff_not] at hc
      simp [takeSign, hc.1, hc.2]
  · rfl
  · rfl

theorem takeSign_cases (text : Text) :
    (∃ rest, text = '-' :: rest ∧ takeSign text = (true, rest)) ∨
      (∃ rest, text = '+' :: rest ∧ takeSign text = (false, rest)) ∨
      takeSign text = (false, text) := by
  unfold takeSign
  split
  · exact .inl ⟨_, rfl, rfl⟩
  · exact .inr (.inl ⟨_, rfl, rfl⟩)
  · exact .inr (.inr rfl)

theorem isSign_of_takeSign (text : Text) :
    ∃ sign, IsSign sign ∧ text = sign ++ (takeSign text).2 := by
  rcases takeSign_cases text with ⟨rest, rfl, h⟩ | ⟨rest, rfl, h⟩ | h
  · exact ⟨['-'], .inr (.inr rfl), by rw [h]; rfl⟩
  · exact ⟨['+'], .inr (.inl rfl), by rw [h]; rfl⟩
  · exact ⟨[], .inl rfl, by rw [h]; rfl⟩

theorem exponent_of_exponentOf? (h : Numeral.exponentOf? text = some e) : Exponent text e := by
  cases text with
  | nil =>
    cases h
    exact .absent
  | cons mark rest =>
    rw [Numeral.exponentOf?] at h
    split at h
    · rename_i hmark
      have hdigits : ∀ {digits : Text}, digits ≠ [] ∧ digits.all Char.isDigit = true →
          IsDigits digits := fun h => ⟨h.1, List.all_eq_true.1 h.2⟩
      rcases takeSign_cases rest with ⟨digits, rfl, hsign⟩ | ⟨digits, rfl, hsign⟩ | hsign
      all_goals
        simp only [hsign, Option.ite_none_right_eq_some, Option.some.injEq, if_true,
          Bool.false_eq_true, if_false] at h
        obtain ⟨hall, rfl⟩ := h
      · exact .minus hmark (hdigits hall)
      · exact .plus hmark (hdigits hall)
      · exact .unsigned hmark (hdigits hall)
    · cases h

/-- What stands behind the digits of a number is no digit. -/
theorem Exponent.stops (h : Exponent exponent e) :
    Stops (fun c => c.isDigit || c = '.') exponent := by
  have hstops := stops_exponent h stops_nil
  rwa [List.append_nil] at hstops

section

variable {whole fraction : Text}

theorem ofText?_without_point (hsign : IsSign sign) (hwhole : IsDigits whole)
    (hexponent : Exponent exponent e) :
    Numeral.ofText? (sign ++ (whole ++ exponent)) =
      some ⟨decide (sign = ['-']), whole, [], e⟩ := by
  have hbody : Stops (fun c => c = '+' || c = '-') (whole ++ exponent) := by
    obtain ⟨c, tail, rfl⟩ := List.exists_cons_of_ne_nil hwhole.1
    obtain ⟨-, -, -, hplus, hminus⟩ := ne_mark_of_isDigit (hwhole.2 c (by simp))
    rw [List.cons_append, stops_cons]
    simp [hplus, hminus]
  have hdigit := hexponent.stops.mono (q := Char.isDigit) fun c hc => (Bool.or_eq_false_iff.1 hc).1
  have hdot : ∀ tail, exponent ≠ '.' :: tail := by
    rintro tail rfl
    have := hexponent.stops
    simp at this
  simp [Numeral.ofText?, takeSign_append hsign hbody, spanDigits_append hwhole.2 hdigit, hwhole.1,
    exponentOf?_eq_some hexponent]

theorem ofText?_with_point (hsign : IsSign sign) (hwhole : ∀ c ∈ whole, c.isDigit = true)
    (hfraction : ∀ c ∈ fraction, c.isDigit = true) (hne : whole ≠ [] ∨ fraction ≠ [])
    (hexponent : Exponent exponent e) :
    Numeral.ofText? (sign ++ (whole ++ '.' :: (fraction ++ exponent))) =
      some ⟨decide (sign = ['-']), whole, fraction, e⟩ := by
  have hbody : Stops (fun c => c = '+' || c = '-') (whole ++ '.' :: (fraction ++ exponent)) := by
    cases whole with
    | nil =>
      rw [List.nil_append, stops_cons]
      decide
    | cons c tail =>
      obtain ⟨-, -, -, hplus, hminus⟩ := ne_mark_of_isDigit (hwhole c (by simp))
      rw [List.cons_append, stops_cons]
      simp [hplus, hminus]
  have hpoint : Stops Char.isDigit ('.' :: (fraction ++ exponent)) := by
    rw [stops_cons]
    decide
  have hdigit := hexponent.stops.mono (q := Char.isDigit) fun c hc => (Bool.or_eq_false_iff.1 hc).1
  have hempty : ¬ (whole = [] ∧ fraction = []) := fun h => hne.elim (· h.1) (· h.2)
  simp [Numeral.ofText?, takeSign_append hsign hbody, spanDigits_append hwhole hpoint,
    spanDigits_append hfraction hdigit, hempty, exponentOf?_eq_some hexponent]

end

/-- **The numeric texts are those that are read as numerals.** -/
theorem numeral_isSome_iff : (Numeral.ofText? text).isSome = true ↔ IsNumeral text := by
  constructor
  · intro h
    obtain ⟨sign, hsign, htext⟩ := isSign_of_takeSign text
    generalize hbody : (takeSign text).2 = body at htext
    have hspan : ∀ text, (spanDigits text).1 ++ (spanDigits text).2 = text :=
      fun text => List.takeWhile_append_dropWhile
    have hdigits : ∀ text, ∀ c ∈ (spanDigits text).1, c.isDigit = true :=
      fun text => List.all_eq_true.1 List.all_takeWhile
    obtain ⟨n, hn⟩ := Option.isSome_iff_exists.1 h
    simp only [Numeral.ofText?, hbody] at hn
    have hwhole := isDigits_spanDigits body
    rw [htext, ← hspan body]
    generalize (spanDigits body).1 = whole at hn hwhole ⊢
    generalize (spanDigits body).2 = rest at hn ⊢
    split at hn
    · rename_i rest'
      obtain ⟨hne, hn⟩ := Option.ite_none_left_eq_some.1 hn
      obtain ⟨e, he, -⟩ := Option.map_eq_some_iff.1 hn
      have hexponent := exponent_of_exponentOf? he
      rw [← hspan rest']
      by_cases hnil : whole = []
      · have hfraction := isDigits_spanDigits rest' fun h => hne ⟨hnil, h⟩
        exact ⟨sign, _, _, e, hsign, .fraction hfraction, hexponent, by simp [hnil]⟩
      · exact ⟨sign, _, _, e, hsign, .pointed (hwhole hnil) (hdigits rest'), hexponent, by simp⟩
    · obtain ⟨hne, hn⟩ := Option.ite_none_left_eq_some.1 hn
      obtain ⟨e, he, -⟩ := Option.map_eq_some_iff.1 hn
      exact ⟨sign, whole, rest, e, hsign, .integer (hwhole fun h => hne ⟨h, rfl⟩),
        exponent_of_exponentOf? he, by simp⟩
  · rintro ⟨sign, mantissa, exponent, e, hsign, hmantissa, hexponent, rfl⟩
    rw [List.append_assoc]
    cases hmantissa with
    | integer hwhole =>
      rw [ofText?_without_point hsign hwhole hexponent]
      rfl
    | pointed hwhole hfraction =>
      rw [List.append_assoc, List.cons_append,
        ofText?_with_point hsign hwhole.2 hfraction (.inl hwhole.1) hexponent]
      rfl
    | @fraction fraction hfraction =>
      have hwhole : ∀ c ∈ ([] : Text), c.isDigit = true := by simp
      have h := ofText?_with_point hsign hwhole hfraction.2 (.inr hfraction.1) hexponent
      rw [List.nil_append] at h
      rw [List.cons_append, h]
      rfl

theorem hasFloatingMark_iff :
    hasFloatingMark text = true ↔ '.' ∈ text ∨ 'e' ∈ text ∨ 'E' ∈ text := by
  simp only [hasFloatingMark, List.any_eq_true, Bool.or_eq_true, decide_eq_true_eq]
  constructor
  · rintro ⟨c, hc, (rfl | rfl) | rfl⟩
    · exact .inl hc
    · exact .inr (.inl hc)
    · exact .inr (.inr hc)
  · rintro (hc | hc | hc)
    · exact ⟨'.', hc, .inl (.inl rfl)⟩
    · exact ⟨'e', hc, .inl (.inr rfl)⟩
    · exact ⟨'E', hc, .inr rfl⟩

/-- A numeric text without the marks of a double is an integer with a sign. -/
theorem integer_of_isNumeral (h : IsNumeral text) (hmark : hasFloatingMark text = false) :
    ∃ sign digits, IsSign sign ∧ IsDigits digits ∧ text = sign ++ digits := by
  obtain ⟨sign, mantissa, exponent, e, hsign, hmantissa, hexponent, rfl⟩ := h
  have hplain := mt hasFloatingMark_iff.2 (Bool.eq_false_iff.1 hmark)
  cases hmantissa with
  | pointed | fraction => exact absurd (.inl (by simp)) hplain
  | integer hwhole =>
    cases hexponent with
    | absent => exact ⟨sign, mantissa, hsign, hwhole, List.append_nil _⟩
    | unsigned hletter | plus hletter | minus hletter =>
      rcases hletter with rfl | rfl
      · exact absurd (.inr (.inl (by simp))) hplain
      · exact absurd (.inr (.inr (by simp))) hplain

theorem IsNumeral.ne_nil (h : IsNumeral text) : text ≠ [] := by
  rintro rfl
  cases numeral_isSome_iff.2 h

theorem integer_ofText? (hsign : IsSign sign) (hdigits : IsDigits digits) :
    IntegerNumeral.ofText? (sign ++ digits) = some ⟨decide (sign = ['-']), digits⟩ := by
  have hbody : Stops (fun c => c = '+' || c = '-') digits := by
    obtain ⟨c, tail, rfl⟩ := List.exists_cons_of_ne_nil hdigits.1
    obtain ⟨-, -, -, hplus, hminus⟩ := ne_mark_of_isDigit (hdigits.2 c (by simp))
    rw [stops_cons]
    simp [hplus, hminus]
  simp [IntegerNumeral.ofText?, takeSign_append hsign hbody, hdigits.1,
    List.all_eq_true.2 hdigits.2]

theorem isNumeral_digits (hsign : IsSign sign) (hdigits : IsDigits digits) :
    IsNumeral (sign ++ digits) :=
  ⟨sign, digits, [], 0, hsign, .integer hdigits, .absent, (List.append_nil _).symm⟩

/-- Signs are no marks of a double. -/
theorem hasFloatingMark_sign_append (hsign : IsSign sign) (text : Text) :
    hasFloatingMark (sign ++ text) = hasFloatingMark text := by
  rcases hsign with rfl | rfl | rfl <;> rfl

end

/-! ## Operands that pass for numbers -/

namespace Value

/-- The operands that pass for numbers. -/
inductive Clean : Value → Prop where
  | null : Clean .null
  | long (i : Int) : Clean (.long i)
  | double (x : Double) : Clean (.double x)
  | string {text : Text} : IsNumeral text → Clean (.string text)

/-- Doubles, and texts with a point or with the letter of an exponent. -/
def LooksFloating : Value → Prop
  | .double _ => True
  | .string text => '.' ∈ text ∨ 'e' ∈ text ∨ 'E' ∈ text
  | _ => False

/-- An integer text with more digits than are converted. -/
def IsLongInteger (text : Text) : Prop :=
  ∃ sign digits, IsSign sign ∧ IsDigits digits ∧ text = sign ++ digits ∧ 4300 < digits.length

section

variable {l r v : Value} {text s sign digits : Text} {failure : Failure}

theorem isClean_iff : v.isClean = true ↔ Clean v := by
  cases v with
  | null => exact iff_of_true rfl .null
  | long i => exact iff_of_true rfl (.long i)
  | double x => exact iff_of_true rfl (.double x)
  | string text =>
    rw [isClean, numeral_isSome_iff]
    refine ⟨.string, fun h => ?_⟩
    cases h with
    | string h => exact h
  | _ => exact iff_of_false Bool.false_ne_true nofun

theorem isFloating_iff : v.isFloating = true ↔ LooksFloating v := by
  cases v with
  | double x => exact iff_of_true rfl trivial
  | string text => exact hasFloatingMark_iff
  | _ => exact iff_of_false Bool.false_ne_true id

/-- Digits behind a sign are the integer of these digits, unless there are too many of them. -/
theorem toLong_digits (hsign : IsSign sign) (hdigits : IsDigits digits) :
    (string (sign ++ digits)).toLong =
      if digits.length ≤ digitLimit then
        .ok (if sign = ['-'] then -(digitsValue digits : Int) else digitsValue digits)
      else .error (.stringToLong (sign ++ digits)) := by
  simp only [toLong, if_neg (isNumeral_digits hsign hdigits).ne_nil, integer_ofText? hsign hdigits,
    Option.bind_some, IntegerNumeral.toInt?, decide_eq_true_eq]
  by_cases hlimit : digits.length ≤ digitLimit
  · simp only [if_pos hlimit]
  · simp only [if_neg hlimit]

/-- An operand that passes for a number and does not look like a double is an integer, unless it is
a text with too many digits. -/
theorem toLong_of_clean (h : Clean v) (hfloating : ¬ LooksFloating v) :
    (∃ i, v.toLong = .ok i) ∨
      ∃ text, v = .string text ∧ IsLongInteger text ∧ v.toLong = .error (.stringToLong text) := by
  cases h with
  | null => exact .inl ⟨0, rfl⟩
  | long i => exact .inl ⟨i, rfl⟩
  | double x => exact absurd trivial hfloating
  | @string text h =>
    have hmark : hasFloatingMark text = false :=
      Bool.eq_false_iff.2 fun h => hfloating (hasFloatingMark_iff.1 h)
    obtain ⟨sign, digits, hsign, hdigits, rfl⟩ := integer_of_isNumeral h hmark
    rw [toLong_digits hsign hdigits]
    by_cases hlimit : digits.length ≤ digitLimit
    · exact .inl ⟨_, if_pos hlimit⟩
    · exact .inr ⟨_, rfl, ⟨sign, digits, hsign, hdigits, rfl, Nat.lt_of_not_le hlimit⟩,
        if_neg hlimit⟩

/-- An operand that passes for a number has a nearest double, unless it is an integer beyond the
range. -/
theorem toDouble_of_clean (h : Clean v) :
    (∃ x, v.toDouble = .ok x) ∨
      ∃ i : Int, v = .long i ∧ 2 ^ (1024 : Nat) ≤ i.natAbs + 2 ^ (970 : Nat) ∧
        v.toDouble = .error (.longToDouble (bitLength i)) := by
  cases h with
  | null => exact .inl ⟨_, rfl⟩
  | double x => exact .inl ⟨x, rfl⟩
  | long i =>
    cases hnearest : Double.ofInt? i with
    | some x => exact .inl ⟨x, by rw [toDouble, hnearest]⟩
    | none =>
      exact .inr ⟨i, rfl, ofInt?_eq_none_iff.1 hnearest, by rw [toDouble, hnearest]⟩
  | string h =>
    obtain ⟨n, hn⟩ := Option.isSome_iff_exists.1 (numeral_isSome_iff.2 h)
    exact .inl ⟨n.toDouble, by rw [toDouble, if_neg h.ne_nil, hn]⟩

theorem isNull_of_isString (h : v.isString = true) : v.isNull = false := by
  cases v with
  | string => rfl
  | _ => cases h

theorem sum_eq (h : (l.isString || r.isString) = true) :
    l.sum r = match l.numericPair r with
      | .error error => .error (.coercion error)
      | .ok (.longs a b) => .ok (.long (a + b))
      | .ok (.doubles x y) => .ok (.double (x.add y)) := by
  have hnull : (l.isNull && r.isNull) = false := by
    rcases Bool.or_eq_true_iff.1 h with h | h
    · rw [isNull_of_isString h, Bool.false_and]
    · rw [isNull_of_isString h, Bool.and_false]
  rw [sum, arithmetic, hnull]
  rfl

/-- The sum of operands of which one looks like a double. -/
theorem sum_of_floating (h : (l.isString || r.isString) = true) (hl : Clean l) (hr : Clean r)
    (hfloating : LooksFloating l ∨ LooksFloating r) :
    (∃ x y, l.toDouble = .ok x ∧ r.toDouble = .ok y ∧ l.sum r = .ok (.double (x.add y))) ∨
      ∃ i : Int, (l = .long i ∨ r = .long i) ∧ 2 ^ (1024 : Nat) ≤ i.natAbs + 2 ^ (970 : Nat) ∧
        l.sum r = .error (.coercion (.longToDouble (bitLength i))) := by
  have hpair : (l.isFloating || r.isFloating) = true :=
    Bool.or_eq_true_iff.2 (hfloating.imp isFloating_iff.2 isFloating_iff.2)
  rw [sum_eq h, numericPair, if_pos hpair]
  rcases toDouble_of_clean hl with ⟨x, hx⟩ | ⟨i, rfl, hi, herror⟩
  · rcases toDouble_of_clean hr with ⟨y, hy⟩ | ⟨i, rfl, hi, herror⟩
    · exact .inl ⟨x, y, hx, hy, by rw [hx, hy]⟩
    · exact .inr ⟨i, .inr rfl, hi, by rw [hx, herror]⟩
  · exact .inr ⟨i, .inl rfl, hi, by rw [herror]⟩

/-- The sum of operands of which none looks like a double. -/
theorem sum_of_not_floating (h : (l.isString || r.isString) = true) (hl : Clean l) (hr : Clean r)
    (hfloating : ¬ (LooksFloating l ∨ LooksFloating r)) :
    (∃ a b, l.toLong = .ok a ∧ r.toLong = .ok b ∧ l.sum r = .ok (.long (a + b))) ∨
      ∃ text, (l = .string text ∨ r = .string text) ∧ IsLongInteger text ∧
        l.sum r = .error (.coercion (.stringToLong text)) := by
  have hpair : ¬ (l.isFloating || r.isFloating) = true := fun hpair =>
    hfloating ((Bool.or_eq_true_iff.1 hpair).imp isFloating_iff.1 isFloating_iff.1)
  obtain ⟨hnl, hnr⟩ := not_or.1 hfloating
  rw [sum_eq h, numericPair, if_neg hpair]
  rcases toLong_of_clean hl hnl with ⟨a, ha⟩ | ⟨text, rfl, htext, herror⟩
  · rcases toLong_of_clean hr hnr with ⟨b, hb⟩ | ⟨text, rfl, htext, herror⟩
    · exact .inl ⟨a, b, ha, hb, by rw [ha, hb]⟩
    · exact .inr ⟨text, .inr rfl, htext, by rw [ha, herror]⟩
  · exact .inr ⟨text, .inl rfl, htext, by rw [herror]⟩

theorem add_eq_sum (hl : Clean l) (hr : Clean r) : l.add r = l.sum r := by
  rw [add, isClean_iff.2 hl, isClean_iff.2 hr, Bool.true_and, Bool.not_true, Bool.and_false]
  rfl

theorem add_eq_concatenate (h : (l.isString || r.isString) = true)
    (hclean : ¬ (Clean l ∧ Clean r)) : l.add r = l.concatenate r := by
  have hboth : (l.isClean && r.isClean) = false := by
    refine Bool.eq_false_iff.2 fun hboth => hclean ?_
    exact (Bool.and_eq_true_iff.1 hboth).imp isClean_iff.1 isClean_iff.1
  rw [add, h, hboth]
  rfl

/-- Texts are joined if there are both. -/
theorem concatenate_cases (l r : Value) :
    (∃ s t, l.toText = .ok s ∧ r.toText = .ok t ∧ l.concatenate r = .ok (.string (s ++ t))) ∨
      ∃ failure, (l.toText = .error failure ∨ r.toText = .error failure) ∧
        l.concatenate r = .error failure := by
  rw [concatenate]
  cases l.toText with
  | error failure => exact .inr ⟨failure, .inl rfl, rfl⟩
  | ok s =>
    cases r.toText with
    | error failure => exact .inr ⟨failure, .inr rfl, rfl⟩
    | ok t => exact .inl ⟨s, t, rfl, rfl, rfl⟩

end

end Value

/-! ## What the operator does -/

open Value

/-- What `+` does if one of its operands is a text. -/
structure AddsOrJoins (l r : Value) : Prop where
  /-- Operands that both pass for numbers are added. -/
  sum_of_clean : Clean l → Clean r → BinaryOperator.add.apply l r = l.sum r
  /-- The sum is a double if an operand looks like one.  There is no sum only if an operand is an
  integer beyond the range of doubles. -/
  double_of_floating : Clean l → Clean r → LooksFloating l ∨ LooksFloating r →
    (∃ x y, l.toDouble = .ok x ∧ r.toDouble = .ok y ∧
      BinaryOperator.add.apply l r = .ok (.double (x.add y))) ∨
    ∃ i : Int, (l = .long i ∨ r = .long i) ∧ 2 ^ (1024 : Nat) ≤ i.natAbs + 2 ^ (970 : Nat) ∧
      BinaryOperator.add.apply l r = .error (.coercion (.longToDouble (bitLength i)))
  /-- Otherwise the sum is an integer.  There is no sum only if an operand is an integer text with
  more than 4300 digits. -/
  long_of_not_floating : Clean l → Clean r → ¬ (LooksFloating l ∨ LooksFloating r) →
    (∃ a b, l.toLong = .ok a ∧ r.toLong = .ok b ∧
      BinaryOperator.add.apply l r = .ok (.long (a + b))) ∨
    ∃ text, (l = .string text ∨ r = .string text) ∧ IsLongInteger text ∧
      BinaryOperator.add.apply l r = .error (.coercion (.stringToLong text))
  /-- Operands that do not both pass for numbers have their texts joined.  There is no result only
  if one of the two has no text, with the reason for this. -/
  join_of_not_clean : ¬ (Clean l ∧ Clean r) →
    (∃ s t, l.toText = .ok s ∧ r.toText = .ok t ∧
      BinaryOperator.add.apply l r = .ok (.string (s ++ t))) ∨
    ∃ failure, (l.toText = .error failure ∨ r.toText = .error failure) ∧
      BinaryOperator.add.apply l r = .error failure
  /-- Beside a text that is not numeric, it depends on the text of the other operand alone whether
  there is a result. -/
  join_text : ∀ text, ¬ IsNumeral text →
    (l = .string text →
      BinaryOperator.add.apply l r = r.toText.map fun other => .string (text ++ other)) ∧
    (r = .string text →
      BinaryOperator.add.apply l r = l.toText.map fun other => .string (other ++ text))

section

variable {l r : Value}

/-- **`+` adds or joins by one rule**: with a text on one of its sides it adds if both operands pass
for numbers, and otherwise it joins their texts. -/
theorem adds_or_joins (h : l.isString = true ∨ r.isString = true) : AddsOrJoins l r := by
  have hstring : (l.isString || r.isString) = true := Bool.or_eq_true_iff.2 h
  refine ⟨add_eq_sum, fun hl hr hfloating => ?_, fun hl hr hfloating => ?_, fun hclean => ?_,
    fun text htext => ⟨?_, ?_⟩⟩
  · rw [BinaryOperator.apply, add_eq_sum hl hr]
    exact sum_of_floating hstring hl hr hfloating
  · rw [BinaryOperator.apply, add_eq_sum hl hr]
    exact sum_of_not_floating hstring hl hr hfloating
  · rw [BinaryOperator.apply, add_eq_concatenate hstring hclean]
    exact concatenate_cases l r
  · rintro rfl
    have hclean : ¬ (Clean (.string text) ∧ Clean r) := fun hclean => by
      cases hclean.1 with
      | string h => exact htext h
    rw [BinaryOperator.apply, add_eq_concatenate hstring hclean, concatenate, toText_string]
    cases r.toText <;> rfl
  · rintro rfl
    have hclean : ¬ (Clean l ∧ Clean (.string text)) := fun hclean => by
      cases hclean.2 with
      | string h => exact htext h
    rw [BinaryOperator.apply, add_eq_concatenate hstring hclean, concatenate, toText_string]
    cases l.toText <;> rfl

/-- The text `-07` with an integer, and the text `1e` with a boolean. -/
theorem adds_or_joins_texts :
    (string ['-', '0', '7']).isString = true ∧ IsNumeral ['-', '0', '7'] ∧
      BinaryOperator.add.apply (string ['-', '0', '7']) (long 10) =
        (string ['-', '0', '7']).sum (long 10) ∧
      BinaryOperator.add.apply (string ['-', '0', '7']) (long 10) = .ok (long 3) ∧
      (string ['1', 'e']).isString = true ∧ ¬ IsNumeral ['1', 'e'] ∧
      BinaryOperator.add.apply (string ['1', 'e']) (boolean true) =
        .ok (string ['1', 'e', 't', 'r', 'u', 'e']) := by
  have hnumeral : IsNumeral ['-', '0', '7'] := numeral_isSome_iff.1 rfl
  have hother : ¬ IsNumeral ['1', 'e'] := mt numeral_isSome_iff.2 (by decide)
  refine ⟨rfl, hnumeral, ?_, rfl, rfl, hother, ?_⟩
  · exact (adds_or_joins (.inl rfl)).sum_of_clean (.string hnumeral) (.long 10)
  · exact ((adds_or_joins (.inl rfl)).join_text ['1', 'e'] hother).1 rfl

end

end ExprLang
