import ExprLang.Proofs.LexicalGrammar

/-!
# The reading of a lexeme

A lexeme is read at the front of a text if and only if it stands there.  Each reader gets one lemma
about what it makes of a lexeme with a text behind it, and one about what it has read when it
succeeds.

* `takeNumber_append`, `numberValue_eq_ok_iff` — the extent and the value of a number.
* `readContent_append`, `body_of_readContent` — the content of a string.
* `keyword?_eq_some_iff`, `localName?_eq_some_iff` — the look-ups of the reader of names.
* `read_of_stands`, `stands_of_read` — a lexeme is read where it stands, and what is read stands
  where it is read.
-/

namespace ExprLang

namespace Lexeme

/-! ## Numbers -/

section

variable {whole fraction digits exponent text rest : Text} {e : Int} {value : Value}

theorem isDigit_iff {c : Char} : c.isDigit = true ↔ 48 ≤ c.toNat ∧ c.toNat ≤ 57 := by
  simp only [Char.isDigit, Bool.and_eq_true, decide_eq_true_eq, ge_iff_le, UInt32.le_iff_toNat_le]
  rfl

theorem isAlpha_iff {c : Char} : c.isAlpha = true ↔
    (65 ≤ c.toNat ∧ c.toNat ≤ 90) ∨ (97 ≤ c.toNat ∧ c.toNat ≤ 122) := by
  change (decide (c.val ≥ 'A'.val ∧ c.val ≤ 'Z'.val) ||
    (decide (c.val ≥ 'a'.val) && decide (c.val ≤ 'z'.val))) = true ↔ _
  simp only [Bool.or_eq_true, Bool.and_eq_true, decide_eq_true_eq, ge_iff_le,
    UInt32.le_iff_toNat_le]
  rfl

theorem ne_mark_of_isDigit {c : Char} (h : c.isDigit = true) :
    c ≠ '.' ∧ c ≠ 'e' ∧ c ≠ 'E' ∧ c ≠ '+' ∧ c ≠ '-' := by
  refine ⟨?_, ?_, ?_, ?_, ?_⟩ <;> rintro rfl <;> exact absurd h (by decide)

theorem continuesNumber_eq_false {c : Char} (h : continuesNumber c = false) :
    c.isDigit = false ∧ c ≠ '.' ∧ c ≠ 'e' ∧ c ≠ 'E' := by
  have halphanum : c.isAlphanum = false := by
    cases h' : c.isAlphanum with
    | false => rfl
    | true => simp [continuesNumber, Unicode.isAlphanumeric_of_isAlphanum h'] at h
  refine ⟨?_, ?_, ?_, ?_⟩
  · simp only [Char.isAlphanum, Bool.or_eq_false_iff] at halphanum
    exact halphanum.2
  all_goals
    rintro rfl
    exact absurd h (by decide)

theorem spanDigits_append (hdigits : ∀ c ∈ digits, c.isDigit = true)
    (hrest : Stops Char.isDigit rest) : spanDigits (digits ++ rest) = (digits, rest) := by
  rw [spanDigits, hrest.takeWhile_append hdigits, hrest.dropWhile_append hdigits]

theorem spanDigits_cons (h : IsDigits digits) (hrest : Stops Char.isDigit rest) :
    ∃ c tail, spanDigits (digits ++ rest) = (c :: tail, rest) ∧ digits = c :: tail := by
  obtain ⟨c, tail, rfl⟩ := List.exists_cons_of_ne_nil h.1
  exact ⟨c, tail, spanDigits_append h.2 hrest, rfl⟩

theorem isDigits_spanDigits (text : Text) (h : (spanDigits text).1 ≠ []) :
    IsDigits (spanDigits text).1 := by
  refine ⟨h, fun c hc => ?_⟩
  exact List.all_eq_true.1 List.all_takeWhile c hc

theorem takeFraction_append (h : Fraction fraction digits)
    (hrest : Stops (fun c => c.isDigit || c = '.') rest) :
    takeFraction (fraction ++ rest) = (fraction, rest) := by
  cases h with
  | absent =>
    cases rest with
    | nil => rfl
    | cons c rest =>
      have hc : c ≠ '.' := by
        rintro rfl
        simp at hrest
      simp [takeFraction, hc]
  | point hdigits =>
    have hstops := hrest.mono (q := Char.isDigit) fun c hc => (Bool.or_eq_false_iff.1 hc).1
    obtain ⟨c, tail, hspan, rfl⟩ := spanDigits_cons hdigits hstops
    simp only [List.cons_append, takeFraction] at hspan ⊢
    rw [hspan]

theorem takeExponentSign_digits (h : IsDigits digits) (rest : Text) :
    takeExponentSign (digits ++ rest) = ([], digits ++ rest) := by
  obtain ⟨hne, hdigits⟩ := h
  obtain ⟨c, tail, rfl⟩ := List.exists_cons_of_ne_nil hne
  obtain ⟨-, -, -, hplus, hminus⟩ := ne_mark_of_isDigit (hdigits c (by simp))
  simp [takeExponentSign, hplus, hminus]

theorem takeExponent_append (h : Exponent exponent e)
    (hrest : Stops (fun c => c.isDigit || c = 'e' || c = 'E') rest) :
    takeExponent (exponent ++ rest) = (exponent, rest) := by
  have hstops := hrest.mono (q := Char.isDigit) fun c hc => by
    simp only [Bool.or_eq_false_iff] at hc
    exact hc.1.1
  cases h with
  | absent =>
    cases rest with
    | nil => rfl
    | cons c rest =>
      simp only [stops_cons, Bool.or_eq_false_iff, decide_eq_false_iff_not] at hrest
      simp [takeExponent, hrest.1.2, hrest.2]
  | unsigned hmark hdigits =>
    have hsign := takeExponentSign_digits hdigits rest
    obtain ⟨c, tail, hspan, rfl⟩ := spanDigits_cons hdigits hstops
    simp only [List.cons_append, takeExponent, if_pos hmark] at hsign hspan ⊢
    simp [hsign, hspan]
  | plus hmark hdigits | minus hmark hdigits =>
    obtain ⟨c, tail, hspan, rfl⟩ := spanDigits_cons hdigits hstops
    simp only [List.cons_append, takeExponent, if_pos hmark, takeExponentSign] at hspan ⊢
    simp [hspan]

/-- The parts of a number do not run into one another. -/
theorem stops_exponent (h : Exponent exponent e) (hrest : Stops continuesNumber rest) :
    Stops (fun c => c.isDigit || c = '.') (exponent ++ rest) := by
  cases h with
  | absent =>
    refine hrest.mono fun c hc => ?_
    obtain ⟨hdigit, hdot, -, -⟩ := continuesNumber_eq_false hc
    simp [hdigit, hdot]
  | unsigned hmark hdigits | plus hmark hdigits | minus hmark hdigits =>
    rw [List.cons_append, stops_cons]
    rcases hmark with rfl | rfl <;> decide

theorem stops_fraction (h : Fraction fraction digits)
    (hrest : Stops (fun c => c.isDigit || c = '.') rest) :
    Stops Char.isDigit (fraction ++ rest) := by
  cases h with
  | absent => exact hrest.mono fun c hc => (Bool.or_eq_false_iff.1 hc).1
  | point hdigits =>
    rw [List.cons_append, stops_cons]
    decide

theorem takeNumber_append (hwhole : IsDigits whole) (hfraction : Fraction fraction digits)
    (hexponent : Exponent exponent e) (hrest : Stops continuesNumber rest) :
    takeNumber (whole ++ fraction ++ exponent ++ rest) = (whole ++ fraction ++ exponent, rest) := by
  have hexp := stops_exponent hexponent hrest
  have hlast : Stops (fun c => c.isDigit || c = 'e' || c = 'E') rest := hrest.mono fun c hc => by
    obtain ⟨hdigit, -, he, hE⟩ := continuesNumber_eq_false hc
    simp [hdigit, he, hE]
  simp only [takeNumber, List.append_assoc,
    spanDigits_append hwhole.2 (stops_fraction hfraction hexp),
    takeFraction_append hfraction hexp, takeExponent_append hexponent hlast]

theorem fraction_of_takeFraction (input : Text) :
    ∃ digits, Fraction (takeFraction input).1 digits ∧
      (takeFraction input).1 ++ (takeFraction input).2 = input := by
  unfold takeFraction
  split
  · rename_i rest
    split
    · exact ⟨[], .absent, rfl⟩
    · rename_i digits rest' hne hspan
      have hdigits := isDigits_spanDigits rest (by rw [hspan]; exact hne)
      rw [hspan] at hdigits
      refine ⟨digits, .point hdigits, ?_⟩
      have happend : (spanDigits rest).1 ++ (spanDigits rest).2 = rest :=
        List.takeWhile_append_dropWhile
      rw [hspan] at happend
      exact congrArg ('.' :: ·) happend
  · exact ⟨[], .absent, rfl⟩

theorem sign_of_takeExponentSign (input : Text) :
    (takeExponentSign input).1 ++ (takeExponentSign input).2 = input ∧
      ((takeExponentSign input).1 = [] ∨ (takeExponentSign input).1 = ['+'] ∨
        (takeExponentSign input).1 = ['-']) := by
  unfold takeExponentSign
  split <;> simp

theorem exponent_of_takeExponent (input : Text) :
    ∃ e, Exponent (takeExponent input).1 e ∧
      (takeExponent input).1 ++ (takeExponent input).2 = input := by
  cases input with
  | nil => exact ⟨0, .absent, rfl⟩
  | cons mark rest =>
    by_cases hmark : mark = 'e' ∨ mark = 'E'
    · obtain ⟨happend, hsign⟩ := sign_of_takeExponentSign rest
      simp only [takeExponent, if_pos hmark]
      split
      · exact ⟨0, .absent, rfl⟩
      · rename_i digits rest' hne hspan
        have hdigits := isDigits_spanDigits (takeExponentSign rest).2
          (by rw [hspan]; exact hne)
        have hspanned : (spanDigits (takeExponentSign rest).2).1 ++
            (spanDigits (takeExponentSign rest).2).2 = (takeExponentSign rest).2 :=
          List.takeWhile_append_dropWhile
        rw [hspan] at hdigits hspanned
        rw [← hspanned] at happend
        rcases hsign with h | h | h <;> rw [h] at happend ⊢
        · exact ⟨_, .unsigned hmark hdigits, by simpa using happend⟩
        · exact ⟨_, .plus hmark hdigits, by simpa using happend⟩
        · exact ⟨_, .minus hmark hdigits, by simpa using happend⟩
    · simp only [takeExponent, if_neg hmark]
      exact ⟨0, .absent, rfl⟩

/-- What is read as a number has the parts of one. -/
theorem parts_of_takeNumber {c : Char} (hc : c.isDigit = true) (tail : Text) :
    ∃ whole fraction digits exponent e, IsDigits whole ∧ Fraction fraction digits ∧
      Exponent exponent e ∧ (takeNumber (c :: tail)).1 = whole ++ fraction ++ exponent ∧
      (takeNumber (c :: tail)).1 ++ (takeNumber (c :: tail)).2 = c :: tail := by
  have hwhole := isDigits_spanDigits (c :: tail) (by simp [spanDigits, hc])
  have hspan : (spanDigits (c :: tail)).1 ++ (spanDigits (c :: tail)).2 = c :: tail :=
    List.takeWhile_append_dropWhile
  obtain ⟨digits, hfraction, hfirst⟩ := fraction_of_takeFraction (spanDigits (c :: tail)).2
  obtain ⟨e, hexponent, hsecond⟩ :=
    exponent_of_takeExponent (takeFraction (spanDigits (c :: tail)).2).2
  refine ⟨_, _, digits, _, e, hwhole, hfraction, hexponent, rfl, ?_⟩
  simp only [takeNumber, List.append_assoc]
  rw [hsecond, hfirst, hspan]

theorem hasFloatingMark_digits (h : IsDigits digits) : hasFloatingMark digits = false := by
  rw [hasFloatingMark, List.any_eq_false]
  intro c hc
  obtain ⟨hdot, he, hE, -, -⟩ := ne_mark_of_isDigit (h.2 c hc)
  simp [hdot, he, hE]

theorem hasFloatingMark_append (hwhole : IsDigits whole) (hfraction : Fraction fraction digits)
    (hexponent : Exponent exponent e) :
    hasFloatingMark (whole ++ fraction ++ exponent) = decide (fraction ++ exponent ≠ []) := by
  have hmark : hasFloatingMark (fraction ++ exponent) = decide (fraction ++ exponent ≠ []) := by
    cases hfraction with
    | point => simp [hasFloatingMark]
    | absent =>
      cases hexponent with
      | absent => rfl
      | unsigned hmark | plus hmark | minus hmark =>
        rcases hmark with rfl | rfl <;> simp [hasFloatingMark]
  rw [List.append_assoc, hasFloatingMark, List.any_append]
  change (hasFloatingMark whole || hasFloatingMark (fraction ++ exponent)) = _
  rw [hasFloatingMark_digits hwhole, Bool.false_or, hmark]

theorem takeSign_digits (h : IsDigits digits) (rest : Text) :
    takeSign (digits ++ rest) = (false, digits ++ rest) := by
  obtain ⟨hne, hdigits⟩ := h
  obtain ⟨c, tail, rfl⟩ := List.exists_cons_of_ne_nil hne
  obtain ⟨-, -, -, hplus, hminus⟩ := ne_mark_of_isDigit (hdigits c (by simp))
  simp [takeSign, hplus, hminus]

theorem exponentOf?_eq_some (h : Exponent exponent e) : Numeral.exponentOf? exponent = some e := by
  cases h with
  | absent => rfl
  | unsigned hmark hdigits =>
    have hsign := takeSign_digits hdigits []
    rw [List.append_nil] at hsign
    simp only [Numeral.exponentOf?, if_pos hmark, hsign]
    simp [hdigits.1, List.all_eq_true.2 hdigits.2]
  | plus hmark hdigits | minus hmark hdigits =>
    simp only [Numeral.exponentOf?, if_pos hmark, takeSign]
    simp [hdigits.1, List.all_eq_true.2 hdigits.2]

theorem numeral_ofText?_append (hwhole : IsDigits whole) (hfraction : Fraction fraction digits)
    (hexponent : Exponent exponent e) :
    Numeral.ofText? (whole ++ fraction ++ exponent) = some ⟨false, whole, digits, e⟩ := by
  have hstops := stops_exponent hexponent stops_nil
  rw [List.append_nil] at hstops
  simp only [Numeral.ofText?, List.append_assoc, takeSign_digits hwhole,
    spanDigits_append hwhole.2 (stops_fraction hfraction hstops)]
  cases hfraction with
  | absent =>
    have hdot : ∀ tail, exponent ≠ '.' :: tail := by
      rintro tail rfl
      simp at hstops
    simp [hwhole.1, exponentOf?_eq_some hexponent]
  | point hdigits =>
    have hdigit := hstops.mono (q := Char.isDigit) fun c hc => (Bool.or_eq_false_iff.1 hc).1
    simp [hwhole.1, spanDigits_append hdigits.2 hdigit, exponentOf?_eq_some hexponent]

/-- The value of a number, by its parts. -/
theorem numberValue_append (hwhole : IsDigits whole) (hfraction : Fraction fraction digits)
    (hexponent : Exponent exponent e) :
    numberValue (whole ++ fraction ++ exponent) =
      if fraction ++ exponent = [] then
        if whole.length ≤ digitLimit then .ok (.long (digitsValue whole))
        else .error (.tooManyDigits whole)
      else .ok (.double (Numeral.toDouble ⟨false, whole, digits, e⟩)) := by
  rw [numberValue, hasFloatingMark_append hwhole hfraction hexponent]
  by_cases hnil : fraction ++ exponent = []
  · have hsign := takeSign_digits hwhole []
    rw [List.append_nil] at hsign
    rw [List.append_assoc, hnil, List.append_nil]
    simp only [ne_eq, not_true_eq_false, decide_false, Bool.false_eq_true, if_false, if_true,
      IntegerNumeral.ofText?, hsign]
    by_cases hlimit : whole.length ≤ digitLimit <;>
      simp [hwhole.1, List.all_eq_true.2 hwhole.2, IntegerNumeral.toInt?, hlimit]
  · simp only [hnil, ne_eq, not_false_eq_true, decide_true, if_true, if_false,
      numeral_ofText?_append hwhole hfraction hexponent, Option.map_some, Option.getD_some]

theorem numberValue_eq_ok_iff (hwhole : IsDigits whole) (hfraction : Fraction fraction digits)
    (hexponent : Exponent exponent e) :
    numberValue (whole ++ fraction ++ exponent) = .ok value ↔
      IsNumber (whole ++ fraction ++ exponent) value := by
  constructor
  · intro h
    rw [numberValue_append hwhole hfraction hexponent] at h
    split at h
    · rename_i hnil
      rw [List.append_assoc, hnil, List.append_nil]
      split at h
      · cases h
        exact .integer hwhole (by assumption)
      · cases h
    · cases h
      exact .double hwhole hfraction hexponent (by assumption)
  · generalize htext : whole ++ fraction ++ exponent = text
    intro h
    cases h with
    | integer hdigits hlimit =>
      have hvalue := numberValue_append hdigits .absent .absent
      simpa [hlimit] using hvalue
    | double hwhole hfraction hexponent hnil =>
      rw [numberValue_append hwhole hfraction hexponent, if_neg hnil]

/-- A number is read where it stands. -/
theorem readNumber_append (h : IsNumber text value) (hrest : Stops continuesNumber rest) :
    readNumber (text ++ rest) = .ok ⟨.literal .number value, text⟩ := by
  have hfollow : rest.head?.filter continuesNumber = none := by
    cases rest with
    | nil => rfl
    | cons c rest => simp [stops_cons.1 hrest]
  have key : takeNumber (text ++ rest) = (text, rest) ∧ numberValue text = .ok value := by
    cases h with
    | integer hdigits hlimit =>
      have htake := takeNumber_append hdigits .absent .absent hrest
      have hnumber : IsNumber (text ++ [] ++ []) (.long (digitsValue text)) := by
        simpa using .integer hdigits hlimit
      have hvalue := (numberValue_eq_ok_iff hdigits .absent .absent).2 hnumber
      simp only [List.append_nil] at htake hvalue
      exact ⟨htake, hvalue⟩
    | double hwhole hfraction hexponent hnil =>
      exact ⟨takeNumber_append hwhole hfraction hexponent hrest,
        (numberValue_eq_ok_iff hwhole hfraction hexponent).2
          (.double hwhole hfraction hexponent hnil)⟩
  simp only [readNumber, key.1, hfollow, key.2]

theorem number_of_readNumber {c : Char} {tail : Text} {lexeme : Lexeme} (hc : c.isDigit = true)
    (h : readNumber (c :: tail) = .ok lexeme) :
    ∃ rest, c :: tail = lexeme.text ++ rest ∧ lexeme.Stands rest := by
  obtain ⟨whole, fraction, digits, exponent, e, hwhole, hfraction, hexponent, htext, happend⟩ :=
    parts_of_takeNumber hc tail
  unfold readNumber at h
  dsimp only at h
  split at h
  · cases h
  · rename_i hfollow
    have hrest : Stops continuesNumber (takeNumber (c :: tail)).2 := by
      intro d hd
      have hnone := Option.filter_eq_none_iff.1 hfollow d hd
      simpa using hnone
    split at h
    · rename_i value hvalue
      cases h
      rw [htext, numberValue_eq_ok_iff hwhole hfraction hexponent, ← htext] at hvalue
      exact ⟨_, happend.symm, .number hvalue hrest⟩
    · cases h

end

/-! ## Strings -/

section

variable {quote : Char} {body content rest input text : Text} {offset : Nat}

theorem unescape?_eq_some_iff {escaped decoded : Char} :
    unescape? escaped = some decoded ↔ (escaped, decoded) ∈ escapes := by
  constructor
  · intro h
    unfold unescape? at h
    split at h <;> cases h <;> decide
  · intro h
    have hall : ∀ pair ∈ escapes, unescape? pair.1 = some pair.2 := by decide
    exact hall _ h

theorem readContent_append (hquote : quote ≠ '\\') (h : StringBody quote body content) :
    readContent quote offset (body ++ quote :: rest) = .ok (content, body ++ [quote]) := by
  induction h generalizing offset with
  | nil =>
    unfold readContent
    simp
  | plain hc hslash hbody ih =>
    rw [List.cons_append]
    unfold readContent
    simp [hc, hslash, ih]
  | escape hescape hbody ih =>
    simp only [List.cons_append]
    unfold readContent
    simp [hquote.symm, unescape?_eq_some_iff.2 hescape, ih]

theorem body_of_readContent (h : readContent quote offset input = .ok (content, text)) :
    ∃ body rest, StringBody quote body content ∧ text = body ++ [quote] ∧
      input = body ++ quote :: rest := by
  fun_induction readContent quote offset input generalizing content text with
  | case1 | case3 | case4 | case6 | case8 => cases h
  | case2 =>
    cases h
    exact ⟨[], _, .nil, rfl, rfl⟩
  | case5 =>
    rename_i hescape _ _ hread _ ih
    cases h
    obtain ⟨body, rest', hbody, rfl, rfl⟩ := ih hread
    exact ⟨_, rest', .escape (unescape?_eq_some_iff.1 hescape) hbody, rfl, rfl⟩
  | case7 =>
    rename_i hquote hslash _ _ hread ih
    cases h
    obtain ⟨body, rest', hbody, rfl, rfl⟩ := ih hread
    exact ⟨_, rest', .plain hquote hslash hbody, rfl, rfl⟩

theorem readString_append (hquote : quote = '"' ∨ quote = '\'')
    (h : StringBody quote body content) :
    readString quote (body ++ quote :: rest) =
      .ok ⟨.literal .string (.string content), quote :: (body ++ [quote])⟩ := by
  have hslash : quote ≠ '\\' := by
    rcases hquote with rfl | rfl <;> decide
  rw [readString, readContent_append hslash h]

theorem string_of_readString {lexeme : Lexeme} (hquote : quote = '"' ∨ quote = '\'')
    (h : readString quote input = .ok lexeme) :
    ∃ rest, quote :: input = lexeme.text ++ rest ∧ lexeme.Stands rest := by
  unfold readString at h
  split at h
  · rename_i content text hread
    cases h
    obtain ⟨body, rest, hbody, rfl, rfl⟩ := body_of_readContent hread
    exact ⟨rest, by simp, .string hquote hbody⟩
  · cases h

end

/-! ## Names -/

section

variable {name rest text localName : Text}

theorem keyword?_eq_some_iff {content : TokenContent} :
    keyword? name = some content ↔ (name, content) ∈ keywords := by
  constructor
  · intro h
    obtain ⟨before, behind, hkeywords, -⟩ := List.lookup_eq_some_iff.1 h
    rw [hkeywords]
    simp
  · have hall : ∀ keyword ∈ keywords, keyword? keyword.1 = some keyword.2 := by
      simp only [keywords, List.forall_mem_cons, List.not_mem_nil, false_imp_iff, implies_true,
        and_true]
      exact ⟨rfl, rfl, rfl, rfl, rfl, rfl, rfl, rfl, rfl, rfl, rfl, rfl, rfl, rfl, rfl, rfl⟩
    exact fun h => hall _ h

theorem keyword?_eq_none_iff :
    keyword? name = none ↔ ∀ keyword ∈ keywords, keyword.1 ≠ name := by
  rw [keyword?, List.lookup_eq_none_iff]
  refine forall_congr' fun keyword => forall_congr' fun _ => ?_
  rw [bne_iff_ne]
  exact ne_comm

theorem isNameChar_of_isNameStart {c : Char} (h : isNameStart c = true) : isNameChar c = true := by
  unfold isNameStart at h
  unfold isNameChar Char.isAlphanum
  rcases Bool.or_eq_true_iff.1 h with h | h <;> simp [h]

theorem takeName_append (h : IsName name) (hrest : Stops isNameChar rest) :
    takeName (name ++ rest) = name := by
  obtain @⟨c, tail, hc, htail⟩ := h
  rw [List.cons_append, takeName, if_pos hc, hrest.takeWhile_append htail]

/-- The name at the front of a text is as long as it can be. -/
theorem name_of_takeName (h : takeName text ≠ []) :
    ∃ rest, text = takeName text ++ rest ∧ IsName (takeName text) ∧ Stops isNameChar rest := by
  cases text with
  | nil => exact absurd rfl h
  | cons c tail =>
    by_cases hc : isNameStart c = true
    · rw [takeName, if_pos hc]
      refine ⟨tail.dropWhile isNameChar, ?_, .intro hc ?_, stops_dropWhile _ _⟩
      · rw [List.cons_append, List.takeWhile_append_dropWhile]
      · exact List.all_eq_true.1 List.all_takeWhile
    · rw [takeName, if_neg hc] at h
      exact absurd rfl h

theorem isCalled_iff : isCalled rest = true ↔ Called rest := by
  constructor
  · intro h
    have hsplit := List.takeWhile_append_dropWhile (p := Unicode.isBlank) (l := rest)
    obtain ⟨behind, hbehind⟩ := List.head?_eq_some_iff.1 (of_decide_eq_true h)
    rw [hbehind] at hsplit
    exact ⟨_, behind, List.all_eq_true.1 List.all_takeWhile, hsplit.symm⟩
  · rintro ⟨gap, behind, hgap, rfl⟩
    have hstops : Stops Unicode.isBlank ('(' :: behind) := stops_cons.2 (by decide)
    rw [isCalled, hstops.dropWhile_append hgap]
    rfl

theorem isNameChar_bounds {c : Char} (h : isNameChar c = true) : 33 ≤ c.toNat ∧ c.toNat < 128 := by
  simp only [isNameChar, Char.isAlphanum, Bool.or_eq_true, isAlpha_iff, isDigit_iff,
    decide_eq_true_eq] at h
  rcases h with h | rfl
  · omega
  · decide

theorem not_isBlank_of_isNameChar {c : Char} (h : isNameChar c = true) :
    Unicode.isBlank c = false := by
  have hbounds := isNameChar_bounds h
  simp [Unicode.isBlank, Unicode.inRanges, Unicode.blankRanges]
  omega

/-- What is called ends there. -/
theorem stops_of_called (h : Called rest) : Stops isNameChar rest := by
  obtain ⟨gap, behind, hgap, rfl⟩ := h
  cases gap with
  | nil => exact stops_cons.2 (by decide)
  | cons c gap =>
    rw [List.cons_append, stops_cons]
    cases hc : isNameChar c with
    | false => rfl
    | true =>
      have hblank := hgap c (by simp)
      rw [not_isBlank_of_isNameChar hc] at hblank
      cases hblank

theorem localName?_eq_some_iff :
    localName? rest = some localName ↔
      ∃ behind, rest = ':' :: (localName ++ behind) ∧ IsIdentifier localName ∧ Called behind := by
  constructor
  · intro h
    unfold localName? at h
    split at h
    · rename_i tail
      dsimp only at h
      split at h
      · rename_i hlocal
        cases h
        obtain ⟨hne, hkeyword, hcalled⟩ := hlocal
        obtain ⟨behind, htail, hname, -⟩ := name_of_takeName hne
        generalize takeName tail = localName at *
        subst htail
        rw [List.drop_left, isCalled_iff] at hcalled
        exact ⟨behind, rfl, ⟨hname, keyword?_eq_none_iff.1 (Option.isNone_iff_eq_none.1 hkeyword)⟩,
          hcalled⟩
      · cases h
    · cases h
  · rintro ⟨behind, rfl, ⟨hname, hkeyword⟩, hcalled⟩
    have htake := takeName_append hname (stops_of_called hcalled)
    have hne : localName ≠ [] := by
      obtain @⟨c, tail, -, -⟩ := hname
      simp
    simp [localName?, htake, hne, keyword?_eq_none_iff.2 hkeyword, isCalled_iff.2 hcalled]

/-! The reading of a name, by what it is and what follows it. -/

theorem readName_keyword {content : TokenContent} (hname : IsName name)
    (hrest : Stops isNameChar rest) (hkeyword : keyword? name = some content) :
    readName (name ++ rest) = ⟨content, name⟩ := by
  simp only [readName, takeName_append hname hrest, hkeyword]

theorem readName_qualified (hname : IsIdentifier name) (hrest : Stops isNameChar rest)
    (hlocal : localName? rest = some localName) :
    readName (name ++ rest) = ⟨.qualifiedName name localName, name ++ ':' :: localName⟩ := by
  simp only [readName, takeName_append hname.isName hrest,
    keyword?_eq_none_iff.2 hname.not_keyword, List.drop_left, hlocal]

theorem readName_identifier (hname : IsIdentifier name) (hrest : Stops isNameChar rest)
    (hlocal : localName? rest = none) :
    readName (name ++ rest) = ⟨.identifier name, name⟩ := by
  simp only [readName, takeName_append hname.isName hrest,
    keyword?_eq_none_iff.2 hname.not_keyword, List.drop_left, hlocal]

theorem name_of_readName {c : Char} {tail : Text} (hc : isNameStart c = true) :
    ∃ rest, c :: tail = (readName (c :: tail)).text ++ rest ∧
      (readName (c :: tail)).Stands rest := by
  obtain ⟨rest, htext, hname, hrest⟩ := name_of_takeName (takeName_ne_nil hc tail)
  generalize takeName (c :: tail) = name at htext hname
  rw [htext]
  cases hkeyword : keyword? name with
  | some content =>
    rw [readName_keyword hname hrest hkeyword]
    exact ⟨rest, rfl, .keyword (keyword?_eq_some_iff.1 hkeyword) hrest⟩
  | none =>
    have hidentifier : IsIdentifier name := ⟨hname, keyword?_eq_none_iff.1 hkeyword⟩
    cases hlocal : localName? rest with
    | some localName =>
      rw [readName_qualified hidentifier hrest hlocal]
      obtain ⟨behind, rfl, hlocalName, hcalled⟩ := localName?_eq_some_iff.1 hlocal
      exact ⟨behind, by simp, .qualified hidentifier hlocalName hcalled⟩
    | none =>
      rw [readName_identifier hidentifier hrest hlocal]
      refine ⟨rest, rfl, .identifier hidentifier hrest ?_⟩
      rintro localName behind hlocalName hcalled rfl
      rw [localName?_eq_some_iff.2 ⟨behind, rfl, hlocalName, hcalled⟩] at hlocal
      cases hlocal

theorem isName_of_keyword {keyword : Text × TokenContent} (h : keyword ∈ keywords) :
    IsName keyword.1 := by
  have hall : ∀ keyword ∈ keywords, takeName keyword.1 = keyword.1 ∧ keyword.1 ≠ [] := by
    simp only [keywords, List.forall_mem_cons, List.not_mem_nil, false_imp_iff, implies_true,
      and_true]
    decide
  obtain ⟨htake, hne⟩ := hall _ h
  obtain ⟨-, -, hname, -⟩ := name_of_takeName (by rw [htake]; exact hne)
  rwa [htake] at hname

end

/-! ## Operators -/

section

variable {rest input : Text} {operator : Operator} {lexeme : Lexeme}

/-- No operator is the beginning of one that is tried after it. -/
theorem operators_pairwise :
    operators.Pairwise fun first second => ¬ first.text <+: second.text := by
  decide +kernel

theorem extends_operator : ∀ operator ∈ operators, ∀ longer ∈ operators,
    operator.text <+: longer.text →
      longer = operator ∨ operator.text ∈ extensible ∧ longer.text = operator.text ++ ['='] := by
  decide +kernel

theorem longer_of_extensible : ∀ text ∈ extensible, ∃ longer ∈ operators,
    longer.text = text ++ ['='] ∧ longer.text ∉ extensible := by
  decide +kernel

theorem readOperator?_append (h : operator ∈ operators)
    (hrest : operator.text ∈ extensible → Stops (· = '=') rest) :
    readOperator? (operator.text ++ rest) = some operator.lexeme := by
  obtain ⟨before, behind, hsplit⟩ := List.append_of_mem h
  have hfind : operators.find? (fun other => other.text.isPrefixOf (operator.text ++ rest)) =
      some operator := by
    rw [List.find?_eq_some_iff_append]
    refine ⟨List.isPrefixOf_iff_prefix.2 (List.prefix_append _ _), before, behind, hsplit, ?_⟩
    intro first hfirst
    rw [Bool.not_eq_true', ← Bool.not_eq_true, List.isPrefixOf_iff_prefix]
    intro hfits
    have hpairwise := operators_pairwise
    rw [hsplit] at hpairwise
    have hnot := (List.pairwise_append.1 hpairwise).2.2 first hfirst _ List.mem_cons_self
    have hmem : first ∈ operators := by
      rw [hsplit]
      exact List.mem_append_left _ hfirst
    -- an operator tried earlier that fits can only be a longer one
    rcases List.prefix_or_prefix_of_prefix hfits (List.prefix_append operator.text rest)
      with hle | hle
    · exact hnot hle
    · rcases extends_operator _ h _ hmem hle with rfl | ⟨hext, heq⟩
      · exact hnot (List.prefix_refl _)
      · obtain ⟨tail, htail⟩ := hfits
        rw [heq, List.append_assoc, List.append_cancel_left_eq] at htail
        have hstops := hrest hext
        rw [← htail] at hstops
        simp at hstops
  rw [readOperator?, hfind]
  rfl

theorem operator_of_readOperator? (h : readOperator? input = some lexeme) :
    ∃ rest, input = lexeme.text ++ rest ∧ lexeme.Stands rest := by
  obtain ⟨operator, hfind, rfl⟩ := Option.map_eq_some_iff.1 h
  have hmem := List.mem_of_find?_eq_some hfind
  have hfits := List.find?_some hfind
  obtain ⟨rest, rfl⟩ := List.isPrefixOf_iff_prefix.1 hfits
  refine ⟨rest, rfl, .operator hmem fun hext c hc => ?_⟩
  obtain ⟨tail, rfl⟩ := List.head?_eq_some_iff.1 hc
  rw [decide_eq_false_iff_not]
  rintro rfl
  obtain ⟨longer, hlonger, heq, hnot⟩ := longer_of_extensible _ hext
  have hread : readOperator? (longer.text ++ tail) = some longer.lexeme :=
    readOperator?_append hlonger fun hext' => absurd hext' hnot
  rw [heq, List.append_assoc] at hread
  have hsame : operator.text = longer.text :=
    congrArg Lexeme.text (Option.some.inj (h.symm.trans hread))
  simp [heq] at hsame

end

/-! ## The first character decides -/

section

variable {lexeme : Lexeme} {c : Char} {tail rest : Text}

/-- The characters that a lexeme can start with, by the reader that they lead to. -/
theorem classes_disjoint (c : Char) :
    (c.isDigit = true → ¬(c = '"' ∨ c = '\'')) ∧
      (isNameStart c = true → ¬(c = '"' ∨ c = '\'') ∧ c.isDigit = false) := by
  refine ⟨?_, fun h => ⟨?_, ?_⟩⟩
  · rintro h (rfl | rfl) <;> cases h
  · rintro (rfl | rfl) <;> cases h
  · unfold isNameStart at h
    cases hdigit : c.isDigit with
    | false => rfl
    | true =>
      have hbounds := isDigit_iff.1 hdigit
      simp only [Bool.or_eq_true, isAlpha_iff, decide_eq_true_eq] at h
      rcases h with h | rfl
      · omega
      · revert hdigit
        decide

theorem operator_starts {operator : Operator} (h : operator ∈ operators) :
    ∃ c tail, operator.text = c :: tail ∧ ¬(c = '"' ∨ c = '\'') ∧ c.isDigit = false ∧
      isNameStart c = false ∧ Unicode.isBlank c = false := by
  have hall : ∀ operator ∈ operators, operator.text.head?.any (fun c =>
      !(c == '"') && !(c == '\'') && !c.isDigit && !isNameStart c && !Unicode.isBlank c) := by
    decide +kernel
  have hfirst := hall operator h
  obtain ⟨text, type, hsign⟩ := operator
  cases text with
  | nil => cases hfirst
  | cons c tail =>
    refine ⟨c, tail, rfl, ?_⟩
    simpa [and_assoc] using hfirst

theorem read_of_isName {name behind : Text} (h : IsName name) (htext : c :: tail = name ++ behind) :
    read c tail = .ok (readName (name ++ behind)) := by
  rw [← htext]
  obtain @⟨d, rest, hd, -⟩ := h
  obtain ⟨rfl, -⟩ := List.cons.inj htext
  obtain ⟨hquote, hdigit⟩ := (classes_disjoint c).2 hd
  rw [read, if_neg hquote, if_neg (by simp [hdigit]), if_pos hd]

theorem digit_of_isNumber {text : Text} {value : Value} (h : IsNumber text value) :
    ∃ c tail, text = c :: tail ∧ c.isDigit = true := by
  cases h with
  | integer hdigits =>
    obtain ⟨c, tail, rfl⟩ := List.exists_cons_of_ne_nil hdigits.1
    exact ⟨c, tail, rfl, hdigits.2 c (by simp)⟩
  | double hwhole =>
    obtain ⟨c, tail, rfl⟩ := List.exists_cons_of_ne_nil hwhole.1
    exact ⟨c, _, rfl, hwhole.2 c (by simp)⟩

/-- A lexeme is read where it stands. -/
theorem read_of_stands (h : lexeme.Stands rest) (htext : c :: tail = lexeme.text ++ rest) :
    read c tail = .ok lexeme := by
  cases h with
  | number hnumber hrest =>
    have hread := readNumber_append hnumber hrest
    rw [← htext] at hread
    obtain ⟨d, tail', rfl, hd⟩ := digit_of_isNumber hnumber
    obtain ⟨rfl, -⟩ := List.cons.inj htext
    rw [read, if_neg ((classes_disjoint c).1 hd), if_pos hd, hread]
  | string hquote hbody =>
    simp only [List.cons_append, List.append_assoc, List.cons.injEq] at htext
    obtain ⟨rfl, rfl⟩ := htext
    rw [read, if_pos hquote]
    exact readString_append hquote hbody
  | keyword hkeyword hrest =>
    have hname := isName_of_keyword hkeyword
    rw [read_of_isName hname htext,
      readName_keyword hname hrest (keyword?_eq_some_iff.2 hkeyword)]
  | identifier hname hrest hcall =>
    have hlocal : localName? rest = none := by
      rw [Option.eq_none_iff_forall_ne_some]
      intro localName hlocal
      obtain ⟨behind, heq, hlocalName, hcalled⟩ := localName?_eq_some_iff.1 hlocal
      exact hcall localName behind hlocalName hcalled heq
    rw [read_of_isName hname.isName htext, readName_identifier hname hrest hlocal]
  | qualified hname hlocalName hcalled =>
    rename_i qualifier localName
    have hlocal := localName?_eq_some_iff.2 ⟨rest, rfl, hlocalName, hcalled⟩
    rw [List.append_assoc, List.cons_append] at htext
    rw [read_of_isName hname.isName htext,
      readName_qualified hname (stops_cons.2 (by decide)) hlocal]
  | operator hoperator hrest =>
    have hread := readOperator?_append hoperator hrest
    rw [Operator.lexeme_text] at htext
    rw [← htext] at hread
    obtain ⟨d, tail', hop, hquote, hdigit, hname, -⟩ := operator_starts hoperator
    rw [hop] at htext
    obtain ⟨rfl, -⟩ := List.cons.inj htext
    rw [read, if_neg hquote, if_neg (by simp [hdigit]), if_neg (by simp [hname]), hread]

theorem stands_of_read (h : read c tail = .ok lexeme) :
    ∃ rest, c :: tail = lexeme.text ++ rest ∧ lexeme.Stands rest := by
  unfold read at h
  split at h
  · exact string_of_readString (by assumption) h
  · split at h
    · exact number_of_readNumber (by assumption) h
    · split at h
      · cases h
        exact name_of_readName (by assumption)
      · split at h
        · cases h
          exact operator_of_readOperator? (by assumption)
        · cases h

theorem stands_of_read_append (h : read c tail = .ok lexeme)
    (htext : c :: tail = lexeme.text ++ rest) : lexeme.Stands rest := by
  obtain ⟨rest', htext', hstands⟩ := stands_of_read h
  rwa [List.append_cancel_left (htext.symm.trans htext')]

/-- The first character of a lexeme leads to the reader that it is meant for. -/
theorem Stands.starts (h : lexeme.Stands rest) :
    ∃ c tail, lexeme.text = c :: tail ∧
      (c.isDigit = true ∨ (c = '"' ∨ c = '\'') ∨ isNameStart c = true ∨
        ∃ operator ∈ operators, lexeme = operator.lexeme) := by
  have hname : ∀ {name}, IsName name → ∃ c tail, name = c :: tail ∧ isNameStart c = true := by
    rintro name @⟨c, tail, hc, -⟩
    exact ⟨c, tail, rfl, hc⟩
  cases h with
  | number hnumber =>
    obtain ⟨c, tail, rfl, hc⟩ := digit_of_isNumber hnumber
    exact ⟨c, tail, rfl, .inl hc⟩
  | string hquote hbody => exact ⟨_, _, rfl, .inr (.inl hquote)⟩
  | keyword hkeyword =>
    obtain ⟨c, tail, htext, hc⟩ := hname (isName_of_keyword hkeyword)
    exact ⟨c, tail, htext, .inr (.inr (.inl hc))⟩
  | identifier hidentifier =>
    obtain ⟨c, tail, rfl, hc⟩ := hname hidentifier.isName
    exact ⟨c, tail, rfl, .inr (.inr (.inl hc))⟩
  | qualified hqualifier =>
    obtain ⟨c, tail, rfl, hc⟩ := hname hqualifier.isName
    exact ⟨c, _, rfl, .inr (.inr (.inl hc))⟩
  | operator hoperator =>
    obtain ⟨c, tail, htext, -⟩ := operator_starts hoperator
    exact ⟨c, tail, htext, .inr (.inr (.inr ⟨_, hoperator, rfl⟩))⟩

/-- A lexeme starts with a character that is no blank. -/
theorem Stands.not_blank (h : lexeme.Stands rest) :
    ∃ c tail, lexeme.text = c :: tail ∧ Unicode.isBlank c = false := by
  obtain ⟨c, tail, htext, hc⟩ := h.starts
  refine ⟨c, tail, htext, ?_⟩
  rcases hc with hdigit | hquote | hname | ⟨operator, hoperator, rfl⟩
  · exact not_isBlank_of_isNameChar (by simp [isNameChar, Char.isAlphanum, hdigit])
  · rcases hquote with rfl | rfl <;> decide
  · exact not_isBlank_of_isNameChar (isNameChar_of_isNameStart hname)
  · obtain ⟨d, tail', hd, -, -, -, hblank⟩ := operator_starts hoperator
    obtain ⟨rfl, -⟩ := List.cons.inj (htext.symm.trans hd)
    exact hblank

theorem Stands.type_ne_eof (h : lexeme.Stands rest) : lexeme.type ≠ .eof := by
  cases h with
  | number | string | identifier | qualified => nofun
  | keyword hkeyword =>
    have hall : ∀ keyword ∈ keywords, keyword.2.type ≠ .eof := by
      simp only [keywords, List.forall_mem_cons, List.not_mem_nil, false_imp_iff, implies_true,
        and_true]
      decide
    exact hall _ hkeyword
  | operator hoperator =>
    have hall : ∀ operator ∈ operators, operator.type ≠ .eof := by decide
    exact hall _ hoperator

end

end Lexeme

end ExprLang
