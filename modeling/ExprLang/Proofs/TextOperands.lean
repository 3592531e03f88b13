import ExprLang.Proofs.ComparisonLaws
import ExprLang.Proofs.SumOrText

/-!
# Numbers and their texts as operands

A number that is written out and used as an operand is read back as that number.  The operators find
out from the characters of a text what they find out from the type of a number, whether to compute
with integers or with doubles; so a number and its text are one operand to arithmetic, and to a
comparison with a number.

* `Writable` — the numbers that are read back: integers of at most 4300 digits and finite doubles.
* `ReadsAs` — a value that the operators read as a number; `readsAs_of_represents` — the number
  itself and its text.
* `numericPair_of_readsAs` — operands that are read alike are a pair of the same numbers.
* `Interchangeable` — what follows for the operators; `interchangeable_of_represents` — it does for
  every number and its text.
-/

namespace ExprLang

open Lexeme

/-! ## Reading what is written -/

/-- The sign in front of a number. -/
def signText (negative : Bool) : Text :=
  if negative then ['-'] else []

section

variable {negative : Bool} {whole fraction digits exponent text : Text} {e : Int} {m : Magnitude}

theorem isSign_signText (negative : Bool) : IsSign (signText negative) := by
  cases negative with
  | true => exact .inr (.inr rfl)
  | false => exact .inl rfl

theorem signText_eq_minus_iff : signText negative = ['-'] ↔ negative = true := by
  cases negative <;> simp [signText]

theorem ofInt_eq (i : Int) : Text.ofInt i = signText (decide (i < 0)) ++ Text.ofNat i.natAbs := by
  by_cases h : i < 0 <;> simp [Text.ofInt, signText, h]

theorem toText_finite (negative : Bool) (m : Magnitude) :
    (Double.finite negative m).toText = signText negative ++ m.shortest.toText := by
  cases negative <;> rfl

/-- A number behind a sign is read with that sign. -/
theorem ofText?_signed (hwhole : IsDigits whole) (hfraction : Fraction fraction digits)
    (hexponent : Exponent exponent e) :
    Numeral.ofText? (signText negative ++ (whole ++ fraction ++ exponent)) =
      some ⟨negative, whole, digits, e⟩ := by
  have hsign := isSign_signText negative
  have hvalue : decide (signText negative = ['-']) = negative := by
    cases negative <;> rfl
  cases hfraction with
  | absent =>
    rw [List.append_nil, ofText?_without_point hsign hwhole hexponent, hvalue]
  | point hdigits =>
    rw [List.append_assoc, List.cons_append,
      ofText?_with_point hsign hwhole.2 hdigits.2 (.inl hwhole.1) hexponent, hvalue]

theorem roundToGrid_of_ofQuotient {num den : Nat}
    (h : Double.ofQuotient negative num den = .finite negative m) :
    roundToGrid num den = m.quanta := by
  unfold Double.ofQuotient at h
  split at h
  · rename_i hround
    cases h
    exact round?_eq_some_iff.1 hround
  · cases h

/-- A decimal in the range is read with its sign. -/
theorem ofDecimal_of_finite {n : Nat} (h : Double.ofDecimal false n e = .finite false m) :
    Double.ofDecimal negative n e = .finite negative m := by
  by_cases hn : n = 0
  · rw [hn, ofDecimal_zero] at h ⊢
    cases h
    rfl
  rw [ofDecimal_eq false hn (k := (-e).toNat) (by omega)] at h
  rw [ofDecimal_eq negative hn (k := (-e).toNat) (by omega)]
  split at h
  · cases h
  rename_i hhigh
  rw [if_neg hhigh]
  split at h
  · rename_i hlow
    cases h
    exact if_pos hlow
  · rename_i hlow
    rw [if_neg hlow]
    exact ofQuotient_eq_finite negative (roundToGrid_of_ofQuotient h)

theorem ofInt?_eq (i : Int) : Double.ofInt? i =
    (Magnitude.round? (i.natAbs * quantaPerOne) 1).map (.finite (decide (i < 0))) := by
  cases i with
  | ofNat n => rw [Double.ofInt?, decide_eq_false (by simp)]; rfl
  | negSucc n => rw [Double.ofInt?, decide_eq_true (Int.negSucc_lt_zero n)]; rfl

/-- An integer is rounded to the double that its digits are read as. -/
theorem ofDecimal_natAbs {i : Int} {x : Double} (h : Double.ofInt? i = some x) :
    Double.ofDecimal (decide (i < 0)) i.natAbs 0 = x := by
  have hrange : i.natAbs < 2 ^ (1024 : Nat) := by
    have hsome := mt ofInt?_eq_none_iff.2 (by rw [h]; exact nofun)
    omega
  rw [ofInt?_eq, Option.map_eq_some_iff] at h
  obtain ⟨m, hm, rfl⟩ := h
  rw [round?_eq_some_iff] at hm
  refine ofDecimal_of_finite ?_
  by_cases hzero : i.natAbs = 0
  · rw [hzero, Nat.zero_mul, roundToGrid_zero] at hm
    rw [hzero, ofDecimal_zero]
    cases m
    cases hm
    rfl
  · have hlength : decimalLength i.natAbs ≤ 400 :=
      (decimalLength_le_iff (by decide)).2 (Nat.lt_trans hrange (by decide +kernel))
    rw [ofDecimal_eq false hzero (k := 0) (by omega), if_neg (by omega), if_neg (by omega)]
    refine ofQuotient_eq_finite false ?_
    simpa using hm

end

namespace Value

/-- The numbers that are read back from their texts. -/
inductive Writable : Value → Prop where
  | long {i : Int} : decimalLength i.natAbs ≤ 4300 → Writable (.long i)
  | double (negative : Bool) (m : Magnitude) : Writable (.double (.finite negative m))

/-- The number itself, or its text. -/
inductive Represents (v : Value) : Value → Prop where
  | number : Represents v v
  | text {text : Text} : v.toText = .ok text → Represents v (.string text)

/-- The operators read `w` as the number `v`. -/
structure ReadsAs (w v : Value) : Prop where
  clean : Clean w
  not_null : w.isNull = false
  isFloating : w.isFloating = v.isFloating
  toLong : v.isFloating = false → w.toLong = v.toLong
  /-- A text may have a nearest double where its integer has none: the text is then infinite. -/
  toDouble : ∀ {x}, v.toDouble = .ok x → w.toDouble = .ok x

section

variable {v w : Value} {i : Int}

theorem toText_long (h : decimalLength i.natAbs ≤ 4300) :
    (long i).toText = .ok (Text.ofInt i) := by
  have hpos : 0 < digitLimit := by simp [digitLimit]
  have hlimit : i.natAbs < 10 ^ digitLimit := (decimalLength_le_iff hpos).1 h
  have htext : integerText? i = some (Text.ofInt i) := if_pos hlimit
  -- The value is kept from view, or else the limit is computed.
  generalize hv : long i = v
  unfold toText
  split
  · cases hv
  · cases hv
  · cases hv
  · cases hv
    rw [htext]
  · cases hv
  · rename_i hlong _
    exact absurd hv.symm (hlong i)

theorem toText_double (x : Double) : (double x).toText = .ok x.toText :=
  rfl

theorem toDouble_long_eq_ok {x : Double} :
    (long i).toDouble = .ok x ↔ Double.ofInt? i = some x := by
  rw [Value.toDouble]
  cases Double.ofInt? i <;> simp

theorem Writable.exists_text (h : Writable v) : ∃ text, v.toText = .ok text := by
  cases h with
  | long h => exact ⟨_, toText_long h⟩
  | double negative m => exact ⟨_, toText_double _⟩

theorem Writable.isNumber (h : Writable v) : v.isNumber = true := by
  cases h <;> rfl

theorem Writable.readsAs (h : Writable v) : ReadsAs v v where
  clean := by
    cases h with
    | long => exact .long _
    | double => exact .double _
  not_null := by cases h <;> rfl
  isFloating := rfl
  toLong _ := rfl
  toDouble := id

/-- Digits behind a sign are read as their integer. -/
theorem readsAs_ofInt (h : decimalLength i.natAbs ≤ 4300) :
    ReadsAs (string (Text.ofInt i)) (long i) := by
  have hsign := isSign_signText (decide (i < 0))
  have hdigits := isDigits_ofNat i.natAbs
  have hnumeral := isNumeral_digits hsign hdigits
  rw [ofInt_eq]
  refine ⟨.string hnumeral, rfl, ?_, fun _ => ?_, fun {x} hx => ?_⟩
  · exact (hasFloatingMark_sign_append hsign _).trans (hasFloatingMark_digits hdigits)
  · refine (toLong_digits hsign hdigits).trans ((if_pos h).trans (congrArg Except.ok ?_))
    simp only [digitsValue_ofNat, signText_eq_minus_iff, decide_eq_true_eq]
    split <;> omega
  · have htext := @ofText?_signed (decide (i < 0)) _ [] [] [] 0 hdigits .absent .absent
    rw [List.append_nil, List.append_nil] at htext
    have hvalue : Numeral.toDouble ⟨decide (i < 0), Text.ofNat i.natAbs, [], 0⟩ = x := by
      rw [Numeral.toDouble, List.append_nil, digitsValue_ofNat]
      exact ofDecimal_natAbs (toDouble_long_eq_ok.1 hx)
    rw [Value.toDouble, if_neg hnumeral.ne_nil, htext]
    exact congrArg Except.ok hvalue

theorem readsAs_toText (negative : Bool) (m : Magnitude) :
    ReadsAs (string (Double.finite negative m).toText) (double (.finite negative m)) := by
  have hsign := isSign_signText negative
  rw [toText_finite]
  have hnumber := isNumber_shortest m
  generalize m.shortest.toText = text at hnumber
  generalize hvalue : double (.finite false m) = value at hnumber
  cases hnumber with
  | integer => cases hvalue
  | @double whole fraction digits exponent e hwhole hfraction hexponent hmark =>
    have htext := @ofText?_signed negative _ _ _ _ _ hwhole hfraction hexponent
    have hnumeral := numeral_isSome_iff.1 (Option.isSome_iff_exists.2 ⟨_, htext⟩)
    refine ⟨.string hnumeral, rfl, ?_, nofun, fun {x} hx => ?_⟩
    · refine (hasFloatingMark_sign_append hsign _).trans ?_
      rw [hasFloatingMark_append hwhole hfraction hexponent, decide_eq_true hmark]
      rfl
    · cases hx
      rw [Value.toDouble, if_neg hnumeral.ne_nil, htext]
      exact congrArg Except.ok (ofDecimal_of_finite (Value.double.inj hvalue).symm)

/-- **A number and its text are read as the number.** -/
theorem readsAs_of_represents (hv : Writable v) (h : Represents v w) : ReadsAs w v := by
  cases h with
  | number => exact hv.readsAs
  | text h =>
    cases hv with
    | long hlimit =>
      rw [toText_long hlimit, Except.ok.injEq] at h
      exact h ▸ readsAs_ofInt hlimit
    | double negative m =>
      rw [toText_double, Except.ok.injEq] at h
      exact h ▸ readsAs_toText negative m

end

/-! ## Operators on operands that are read as numbers -/

section

variable {v w l r l' r' : Value}

/-- Operands that are read alike are a pair of the same numbers, if both have a nearest double where
doubles are computed with. -/
theorem numericPair_of_readsAs (hl : ReadsAs l' l) (hr : ReadsAs r' r)
    (hdoubles : (l.isFloating || r.isFloating) = true →
      (∃ x, l.toDouble = .ok x) ∧ ∃ y, r.toDouble = .ok y) :
    numericPair l' r' = numericPair l r := by
  rw [numericPair, numericPair, hl.isFloating, hr.isFloating]
  split
  · rename_i hfloating
    obtain ⟨⟨x, hx⟩, y, hy⟩ := hdoubles hfloating
    rw [hx, hy, hl.toDouble hx, hr.toDouble hy]
  · rename_i hplain
    obtain ⟨hnl, hnr⟩ := Bool.or_eq_false_iff.1 (Bool.eq_false_iff.2 hplain)
    rw [hl.toLong hnl, hr.toLong hnr]

theorem arithmetic_of_numericPair {onLongs : Int → Int → Except Failure Int}
    {onDoubles : Double → Double → Except Failure Double} (hnull : l.isNull = false)
    (hnull' : l'.isNull = false) (hpair : numericPair l' r' = numericPair l r) :
    arithmetic onLongs onDoubles l' r' = arithmetic onLongs onDoubles l r := by
  rw [arithmetic, arithmetic, hnull, hnull', hpair]
  rfl

theorem divide_of_readsAs (hl : ReadsAs l' l) (hr : ReadsAs r' r) (hnull : l.isNull = false)
    {x y : Double} (hx : l.toDouble = .ok x) (hy : r.toDouble = .ok y) :
    l'.divide r' = l.divide r := by
  rw [divide, divide, hnull, hl.not_null, hx, hy, hl.toDouble hx, hr.toDouble hy]
  rfl

/-- The negation of an operand that passes for a number. -/
theorem negate_of_clean (h : Clean v) (hnull : v.isNull = false) :
    v.negate =
      if v.isFloating then Failure.ofCoercion (v.toDouble.map fun x => .double x.neg)
      else Failure.ofCoercion (v.toLong.map fun i => .long (-i)) := by
  cases h with
  | null => cases hnull
  | long | double | string => rfl

/-- A number has a nearest double if it looks like one. -/
theorem Writable.exists_double (h : Writable v) (hfloating : v.isFloating = true) :
    ∃ x, v.toDouble = .ok x := by
  cases h with
  | long => cases hfloating
  | double => exact ⟨_, rfl⟩

theorem negate_of_readsAs (hv : Writable v) (h : ReadsAs w v) : w.negate = v.negate := by
  rw [negate_of_clean h.clean h.not_null, negate_of_clean hv.readsAs.clean hv.readsAs.not_null,
    h.isFloating]
  split
  · rename_i hfloating
    obtain ⟨x, hx⟩ := hv.exists_double hfloating
    rw [hx, h.toDouble hx]
  · rename_i hplain
    rw [h.toLong (Bool.eq_false_iff.2 hplain)]

theorem not_booleans_of_clean (hl : Clean l) (hr : Clean r) :
    ¬ (l.kind = .boolean ∨ r.kind = .boolean) := by
  have hkind : ∀ {u}, Clean u → u.kind ≠ .boolean := fun h => by
    cases h <;> exact nofun
  exact fun h => h.elim (hkind hl) (hkind hr)

/-- Operands that are read as numbers are compared as numbers, if one of them is a number. -/
theorem equals_of_readsAs (hl : ReadsAs l v) (hr : ReadsAs r w)
    (hnumber : (l.isNumber || r.isNumber) = true) :
    l.equals r = Failure.ofCoercion ((numericPair l r).map NumericPair.equal) := by
  have hboolean := not_booleans_of_clean hl.clean hr.clean
  rw [equals_of_not_isNull hl.not_null hr.not_null, if_neg hboolean,
    if_neg (not_strings_of_isNumber hnumber), if_pos hnumber]

theorem compare_of_readsAs (hl : ReadsAs l v) (hr : ReadsAs r w)
    (hnumber : (l.isNumber || r.isNumber) = true) (accepts : Ordering → Bool) :
    l.compare accepts r =
      Failure.ofCoercion (((numericPair l r).map NumericPair.order).map accepts) := by
  have hboolean := not_booleans_of_clean hl.clean hr.clean
  rw [compare_of_not_isNull hl.not_null hr.not_null,
    order_of_not_strings (not_strings_of_isNumber hnumber), if_neg hboolean, if_pos hnumber]

end

end Value

/-! ## Interchangeable operands -/

open Value

/-- Where an operator computes with doubles, every operand that is an integer has a nearest one. -/
def Convertible (operator : BinaryOperator) (v w : Value) : Prop :=
  operator = .divide ∨ v.kind = .double ∨ w.kind = .double →
    ∀ u ∈ [v, w], u.kind = .long → ∃ x, u.toDouble = .ok x

/-- The numbers `v` and `w` have texts, and the operators do not tell `l` and `r` from them. -/
structure Interchangeable (v w l r : Value) : Prop where
  texts : ∀ u ∈ [v, w], ∃ text, u.toText = .ok text
  arithmetic : ∀ operator ∈ [BinaryOperator.add, .subtract, .multiply, .divide, .modulo],
    Convertible operator v w → operator.apply l r = operator.apply v w
  negation : UnaryOperator.negate.apply l = UnaryOperator.negate.apply v
  /-- Two texts are compared as texts; so one of the operands is to be the number itself. -/
  comparison : ∀ operator ∈ [BinaryOperator.eq, .ne, .lt, .le, .gt, .ge],
    Convertible operator v w → l = v ∨ r = w → operator.apply l r = operator.apply v w

section

variable {v w l r : Value} {operator : BinaryOperator}

theorem exists_doubles_of_convertible (hv : Writable v) (hw : Writable w)
    (hconvertible : Convertible operator v w)
    (h : operator = .divide ∨ v.kind = .double ∨ w.kind = .double) :
    (∃ x, v.toDouble = .ok x) ∧ ∃ y, w.toDouble = .ok y := by
  have hlongs := hconvertible h
  have hdouble : ∀ u ∈ [v, w], Writable u → ∃ x, u.toDouble = .ok x := fun u hu h => by
    cases h with
    | long => exact hlongs _ hu rfl
    | double => exact ⟨_, rfl⟩
  exact ⟨hdouble v (by simp) hv, hdouble w (by simp) hw⟩

theorem kind_of_isFloating (hv : Writable v) (h : v.isFloating = true) : v.kind = .double := by
  cases hv with
  | long => cases h
  | double => rfl

theorem numericPair_of_represents (hv : Writable v) (hw : Writable w) (hl : Represents v l)
    (hr : Represents w r) (hconvertible : Convertible operator v w) :
    numericPair l r = numericPair v w := by
  refine numericPair_of_readsAs (readsAs_of_represents hv hl) (readsAs_of_represents hw hr) ?_
  intro hfloating
  refine exists_doubles_of_convertible hv hw hconvertible (.inr ?_)
  exact (Bool.or_eq_true_iff.1 hfloating).imp (kind_of_isFloating hv) (kind_of_isFloating hw)

theorem arithmetic_of_represents (hv : Writable v) (hw : Writable w) (hl : Represents v l)
    (hr : Represents w r)
    (hoperator : operator ∈ [BinaryOperator.add, .subtract, .multiply, .divide, .modulo])
    (hconvertible : Convertible operator v w) : operator.apply l r = operator.apply v w := by
  have hleft := readsAs_of_represents hv hl
  have hright := readsAs_of_represents hw hr
  have hpair := numericPair_of_represents hv hw hl hr hconvertible
  have harithmetic := fun {onLongs onDoubles} =>
    @arithmetic_of_numericPair _ _ _ _ onLongs onDoubles hv.readsAs.not_null hleft.not_null hpair
  simp only [List.mem_cons, List.not_mem_nil, or_false] at hoperator
  rcases hoperator with rfl | rfl | rfl | rfl | rfl
  · rw [BinaryOperator.apply, BinaryOperator.apply, add_eq_sum hleft.clean hright.clean,
      add_eq_sum hv.readsAs.clean hw.readsAs.clean]
    exact harithmetic
  · exact harithmetic
  · exact harithmetic
  · obtain ⟨⟨x, hx⟩, y, hy⟩ := exists_doubles_of_convertible hv hw hconvertible (.inl rfl)
    exact divide_of_readsAs hleft hright hv.readsAs.not_null hx hy
  · exact harithmetic

theorem comparison_of_represents (hv : Writable v) (hw : Writable w) (hl : Represents v l)
    (hr : Represents w r)
    (hoperator : operator ∈ [BinaryOperator.eq, .ne, .lt, .le, .gt, .ge])
    (hconvertible : Convertible operator v w) (hnumber : l = v ∨ r = w) :
    operator.apply l r = operator.apply v w := by
  have hleft := readsAs_of_represents hv hl
  have hright := readsAs_of_represents hw hr
  have hpair := numericPair_of_represents hv hw hl hr hconvertible
  have hboth : (v.isNumber || w.isNumber) = true := by rw [hv.isNumber, Bool.true_or]
  have hone : (l.isNumber || r.isNumber) = true := by
    rcases hnumber with rfl | rfl
    · rw [hv.isNumber, Bool.true_or]
    · rw [hw.isNumber, Bool.or_true]
  have hequals : l.equals r = v.equals w := by
    rw [equals_of_readsAs hleft hright hone, hpair, equals_of_readsAs hv.readsAs hw.readsAs hboth]
  have hcompare : ∀ accepts, l.compare accepts r = v.compare accepts w := fun accepts => by
    rw [compare_of_readsAs hleft hright hone, hpair,
      compare_of_readsAs hv.readsAs hw.readsAs hboth]
  simp only [List.mem_cons, List.not_mem_nil, or_false] at hoperator
  rcases hoperator with rfl | rfl | rfl | rfl | rfl | rfl
  all_goals simp only [BinaryOperator.apply, hequals, hcompare]

/-- **A number and its text are one operand**, to arithmetic, and to a comparison with a number. -/
theorem interchangeable_of_represents (hv : Writable v) (hw : Writable w) (hl : Represents v l)
    (hr : Represents w r) : Interchangeable v w l r where
  texts := by
    simp only [List.forall_mem_cons]
    exact ⟨hv.exists_text, hw.exists_text, by simp⟩
  arithmetic _ := arithmetic_of_represents hv hw hl hr
  negation := negate_of_readsAs hv (readsAs_of_represents hv hl)
  comparison _ := comparison_of_represents hv hw hl hr

/-- The integer `-7` and the double `-0.5` with their texts. -/
theorem interchangeable_of_represents_texts :
    let v := long (-7)
    let w := double (.finite true ⟨2 ^ (1073 : Nat), by decide +kernel, by decide +kernel⟩)
    let l := string ['-', '7']
    let r := string ['-', '0', '.', '5']
    Writable v ∧ Writable w ∧ Represents v l ∧ Represents w r ∧ Interchangeable v w l r ∧
      BinaryOperator.modulo.apply l r = BinaryOperator.modulo.apply v w ∧
      (BinaryOperator.modulo.apply v w).bind toText = .ok ['-', '0', '.', '0'] := by
  intro v w l r
  have hv : Writable v := .long (by decide)
  have hw : Writable w := .double _ _
  have hl : Represents v l := .text (by decide +kernel)
  have hr : Represents w r := .text (by decide +kernel)
  have hinterchangeable := interchangeable_of_represents hv hw hl hr
  have hseven : ∃ x, v.toDouble = .ok x := by
    have hsome : (Double.ofInt? (-7)).isSome = true := by decide +kernel
    obtain ⟨x, hx⟩ := Option.isSome_iff_exists.1 hsome
    exact ⟨x, toDouble_long_eq_ok.2 hx⟩
  have hconvertible : Convertible .modulo v w := fun _ u hu hkind => by
    rcases List.mem_pair.1 hu with rfl | rfl
    · exact hseven
    · cases hkind
  exact ⟨hv, hw, hl, hr, hinterchangeable,
    hinterchangeable.arithmetic .modulo (by simp) hconvertible, by decide +kernel⟩

end

end ExprLang
