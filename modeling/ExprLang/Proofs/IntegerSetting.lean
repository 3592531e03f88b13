import ExprLang.Options.Environment
import ExprLang.Proofs.NumberText
import ExprLang.Proofs.SumOrText
import Mathlib.Data.List.Basic

/-!
# Integers in any script

The reader of integers puts a text into ASCII form first, then takes the spaces off its ends, then
a sign, and then the underscores out.  What it accepts is said here of the characters as they are:
spaces, a sign, and decimal digits of any script with single underscores between them.

* `IsSpace`, `Grouped`, `IntegerText` — spaces, groups of digits, and the texts of an integer.
* `asciiForm_eq_map` — the ASCII form is found character by character.
* `readInteger?_eq_some_iff` — the reader accepts the texts of integers and gives their values.
* `integerText_ofNat` — a number that is written out is the text of itself.
-/

namespace ExprLang

open Lexeme

/-! ## The texts of integers -/

/-- A blank that is no information separator. -/
def IsSpace (c : Char) : Prop :=
  Unicode.isBlank c = true ∧ (c.toNat < 0x1C ∨ 0x1F < c.toNat)

/-- Decimal digits of any script with their values; single underscores may separate them. -/
inductive Grouped : Text → List Nat → Prop where
  | last {c : Char} {n : Nat} : Unicode.digitValue? c = some n → Grouped [c] [n]
  | digit {c : Char} {n : Nat} {text : Text} {digits : List Nat} :
    Unicode.digitValue? c = some n → Grouped text digits → Grouped (c :: text) (n :: digits)
  | separated {c : Char} {n : Nat} {text : Text} {digits : List Nat} :
    Unicode.digitValue? c = some n → Grouped text digits →
    Grouped (c :: '_' :: text) (n :: digits)

/-- The number with these digits. -/
def decimalValue (digits : List Nat) : Nat :=
  digits.foldl (fun value n => 10 * value + n) 0

/-- A sign and digits, with spaces around them, and the integer that they stand for. -/
inductive IntegerText : Text → Int → Prop where
  | intro {left sign body right : Text} {digits : List Nat} :
    (∀ c ∈ left, IsSpace c) → IsSign sign → Grouped body digits → digits.length ≤ digitLimit →
    (∀ c ∈ right, IsSpace c) →
    IntegerText (left ++ (sign ++ body) ++ right)
      (if sign = ['-'] then -(decimalValue digits : Int) else decimalValue digits)

/-! ## The ASCII form -/

/-- The ASCII counterpart of a character, if it has one. -/
def asciiChar (c : Char) : Char :=
  if c.toNat < 127 then c
  else if Unicode.isBlank c then ' '
  else match Unicode.digitValue? c with
    | some value => value.digitChar
    | none => c

variable {c d : Char} {n : Nat}

theorem asciiChar_of_lt (h : c.toNat < 128) : asciiChar c = c := by
  by_cases hlt : c.toNat < 127
  · exact if_pos hlt
  · obtain rfl : c = '\x7f' := Char.toNat_inj.1 (by show c.toNat = 127; omega)
    decide

theorem digitValue?_lt (h : Unicode.digitValue? c = some n) : n < 10 := by
  obtain ⟨first, hfirst, rfl⟩ := Option.map_eq_some_iff.1 h
  have := List.find?_some hfirst
  simp only [decide_eq_true_eq] at this
  omega

/-- Among the ASCII characters, the digits are those from zero to nine. -/
theorem digitValue?_of_lt (h : c.toNat < 128) :
    Unicode.digitValue? c = if c.isDigit then some (c.toNat - 48) else none := by
  have hothers : ∀ first ∈ Unicode.zeros.tail, 128 ≤ first := by decide
  have hnone : Unicode.zeros.tail.find? (fun first =>
      decide (first ≤ c.toNat ∧ c.toNat < first + 10)) = none := by
    refine List.find?_eq_none.2 fun first hfirst => ?_
    have := hothers first hfirst
    simp only [decide_eq_true_eq]
    omega
  have hdigit : c.isDigit = decide (48 ≤ c.toNat ∧ c.toNat < 48 + 10) := by
    rw [Bool.eq_iff_iff, isDigit_iff, decide_eq_true_eq]
    omega
  show ((0x30 :: Unicode.zeros.tail).find? _).map _ = _
  rw [List.find?_cons, hnone, hdigit]
  cases decide (48 ≤ c.toNat ∧ c.toNat < 48 + 10) <;> rfl

/-- No blank is a digit. -/
theorem digitValue?_of_isBlank (h : Unicode.isBlank c = true) : Unicode.digitValue? c = none := by
  have happart : ∀ range ∈ Unicode.blankRanges, ∀ first ∈ Unicode.zeros,
      first + 10 ≤ range.1 ∨ range.2 < first := by decide
  obtain ⟨range, hrange, hlow, hhigh⟩ := Unicode.inRanges_iff.1 h
  have hnone : Unicode.zeros.find? (fun first =>
      decide (first ≤ c.toNat ∧ c.toNat < first + 10)) = none := by
    refine List.find?_eq_none.2 fun first hfirst => ?_
    have := happart range hrange first hfirst
    simp only [decide_eq_true_eq]
    omega
  rw [Unicode.digitValue?, hnone]
  rfl

theorem isAsciiSpace_iff : isAsciiSpace c = true ↔ c.toNat = 32 ∨ 9 ≤ c.toNat ∧ c.toNat ≤ 13 := by
  have hspace : c = ' ' ↔ c.toNat = 32 := Char.toNat_inj.symm
  simp [isAsciiSpace, hspace]

/-- Among the ASCII characters, the spaces are the ASCII spaces. -/
theorem isSpace_iff_of_lt (h : c.toNat < 128) : IsSpace c ↔ isAsciiSpace c = true := by
  simp only [IsSpace, isAsciiSpace_iff, Unicode.isBlank, Unicode.inRanges_iff, Unicode.blankRanges,
    List.mem_cons, List.not_mem_nil, or_false]
  constructor
  · rintro ⟨⟨range, hrange, hlow, hhigh⟩, hseparator⟩
    rcases hrange with rfl | rfl | rfl | rfl | rfl | rfl | rfl | rfl | rfl | rfl <;>
      simp only at hlow hhigh <;> omega
  · intro hc
    refine ⟨?_, by omega⟩
    rcases hc with hc | hc
    · exact ⟨(0x1C, 0x20), by simp, by simp only; omega, by simp only; omega⟩
    · exact ⟨(0x9, 0xD), by simp, by simp only; omega, by simp only; omega⟩

theorem asciiChar_digit (h : Unicode.digitValue? c = some n) : asciiChar c = n.digitChar := by
  by_cases hlt : c.toNat < 128
  · rw [digitValue?_of_lt hlt] at h
    split at h
    · rename_i hdigit
      cases h
      have := isDigit_iff.1 hdigit
      rw [asciiChar_of_lt hlt]
      refine Char.toNat_inj.1 ?_
      rw [Nat.toNat_digitChar_of_lt_ten (by omega)]
      omega
    · cases h
  · have hblank : Unicode.isBlank c = false := by
      cases hblank : Unicode.isBlank c with
      | false => rfl
      | true => rw [digitValue?_of_isBlank hblank] at h; cases h
    have hascii : ¬ c.toNat < 127 := by omega
    simp [asciiChar, hascii, hblank, h]

theorem isDigit_digitChar (h : n < 10) : n.digitChar.isDigit = true := by
  rw [isDigit_iff, Nat.toNat_digitChar_of_lt_ten h]
  omega

/-- A character becomes a space or an ASCII digit, or it is neither and stays what it is. -/
theorem asciiChar_cases (c : Char) :
    IsSpace c ∧ isAsciiSpace (asciiChar c) = true ∨
      (∃ n, Unicode.digitValue? c = some n ∧ asciiChar c = n.digitChar) ∨
      ¬ IsSpace c ∧ asciiChar c = c ∧ c.isDigit = false := by
  by_cases hlt : c.toNat < 128
  · rw [asciiChar_of_lt hlt]
    by_cases hspace : IsSpace c
    · exact .inl ⟨hspace, (isSpace_iff_of_lt hlt).1 hspace⟩
    · cases hdigit : c.isDigit with
      | true =>
        have hvalue := digitValue?_of_lt hlt
        rw [hdigit, if_pos rfl] at hvalue
        refine .inr (.inl ⟨_, hvalue, ?_⟩)
        rw [← asciiChar_digit hvalue, asciiChar_of_lt hlt]
      | false => exact .inr (.inr ⟨hspace, rfl, rfl⟩)
  · have hascii : ¬ c.toNat < 127 := by omega
    cases hblank : Unicode.isBlank c with
    | true =>
      refine .inl ⟨⟨hblank, .inr (by omega)⟩, ?_⟩
      simp [asciiChar, hascii, hblank, isAsciiSpace]
    | false =>
      cases hvalue : Unicode.digitValue? c with
      | some n => exact .inr (.inl ⟨n, rfl, asciiChar_digit hvalue⟩)
      | none =>
        refine .inr (.inr ⟨?_, by simp [asciiChar, hascii, hblank, hvalue], ?_⟩)
        · intro hspace
          rw [hspace.1] at hblank
          cases hblank
        · rw [Bool.eq_false_iff, ne_eq, isDigit_iff]
          omega

theorem isAsciiSpace_asciiChar : isAsciiSpace (asciiChar c) = true ↔ IsSpace c := by
  rcases asciiChar_cases c with ⟨hspace, hascii⟩ | ⟨n, hn, hascii⟩ | ⟨hspace, hascii, -⟩
  · exact iff_of_true hascii hspace
  · have hlt := digitValue?_lt hn
    refine iff_of_false ?_ ?_
    · rw [hascii, isAsciiSpace_iff, Nat.toNat_digitChar_of_lt_ten hlt]
      omega
    · intro hspace
      rw [digitValue?_of_isBlank hspace.1] at hn
      cases hn
  · refine iff_of_false ?_ hspace
    rw [hascii]
    intro hc
    refine hspace ((isSpace_iff_of_lt ?_).2 hc)
    rw [isAsciiSpace_iff] at hc
    omega

theorem exists_digitValue (h : (asciiChar c).isDigit = true) :
    ∃ n, Unicode.digitValue? c = some n ∧ asciiChar c = n.digitChar := by
  rcases asciiChar_cases c with ⟨-, hascii⟩ | hdigit | ⟨-, hascii, hdigit⟩
  · rw [isAsciiSpace_iff] at hascii
    rw [isDigit_iff] at h
    omega
  · exact hdigit
  · rw [hascii, hdigit] at h
    cases h

/-- Signs and underscores come from themselves alone. -/
theorem asciiChar_eq_iff (hlt : d.toNat < 128) (hspace : isAsciiSpace d = false)
    (hdigit : d.isDigit = false) : asciiChar c = d ↔ c = d := by
  constructor
  · rintro rfl
    rcases asciiChar_cases c with ⟨-, hascii⟩ | ⟨n, hn, hascii⟩ | ⟨-, hascii, -⟩
    · rw [hspace] at hascii
      cases hascii
    · rw [hascii, isDigit_digitChar (digitValue?_lt hn)] at hdigit
      cases hdigit
    · exact hascii.symm
  · rintro rfl
    exact asciiChar_of_lt hlt

theorem asciiForm_eq_map (text : Text) : asciiForm text = text.map asciiChar := by
  rw [asciiForm]
  split
  · rename_i hascii
    have hsame : text.map asciiChar = text.map id := by
      refine List.map_congr_left fun c hc => asciiChar_of_lt ?_
      simpa using List.all_eq_true.1 hascii c hc
    rw [hsame, List.map_id]
  · rfl

/-! ## Spaces, sign and underscores -/

section

variable {left middle right text body sign : Text} {digits : List Nat} {i : Int}

theorem trimSpaces_append (hleft : ∀ c ∈ left, isAsciiSpace c = true)
    (hright : ∀ c ∈ right, isAsciiSpace c = true) (hfirst : Stops isAsciiSpace (middle ++ right))
    (hlast : Stops isAsciiSpace middle.reverse) :
    trimSpaces (left ++ middle ++ right) = middle := by
  have hright' : ∀ c ∈ right.reverse, isAsciiSpace c = true :=
    fun c hc => hright c (List.mem_reverse.1 hc)
  rw [trimSpaces, List.append_assoc, hfirst.dropWhile_append hleft, List.reverse_append,
    hlast.dropWhile_append hright', List.reverse_reverse]

/-- What is trimmed off is spaces. -/
theorem exists_trimmed (text : Text) : ∃ left right, (∀ c ∈ left, isAsciiSpace c = true) ∧
    (∀ c ∈ right, isAsciiSpace c = true) ∧ text = left ++ trimSpaces text ++ right := by
  have hspaces : ∀ s : Text, ∀ c ∈ s.takeWhile isAsciiSpace, isAsciiSpace c = true :=
    fun s => List.all_eq_true.1 List.all_takeWhile
  refine ⟨text.takeWhile isAsciiSpace,
    ((text.dropWhile isAsciiSpace).reverse.takeWhile isAsciiSpace).reverse, hspaces text, ?_, ?_⟩
  · intro c hc
    exact hspaces _ c (List.mem_reverse.1 hc)
  · rw [trimSpaces, List.append_assoc, ← List.reverse_append, List.takeWhile_append_dropWhile,
      List.reverse_reverse, List.takeWhile_append_dropWhile]

theorem Grouped.lt_ten (h : Grouped body digits) : ∀ n ∈ digits, n < 10 := by
  induction h with
  | last hn =>
    intro m hm
    rw [List.mem_singleton.1 hm]
    exact digitValue?_lt hn
  | digit hn _ ih | separated hn _ ih => exact List.forall_mem_cons.2 ⟨digitValue?_lt hn, ih⟩

/-- Digits stand at both ends of a group. -/
theorem Grouped.ends (h : Grouped body digits) :
    (∃ c n rest, body = c :: rest ∧ Unicode.digitValue? c = some n) ∧
      ∃ c n rest, body = rest ++ [c] ∧ Unicode.digitValue? c = some n := by
  induction h with
  | last hn => exact ⟨⟨_, _, [], rfl, hn⟩, _, _, [], rfl, hn⟩
  | digit hn _ ih =>
    obtain ⟨c, n, rest, rfl, hc⟩ := ih.2
    exact ⟨⟨_, _, _, rfl, hn⟩, c, n, _ :: rest, rfl, hc⟩
  | separated hn _ ih =>
    obtain ⟨c, n, rest, rfl, hc⟩ := ih.2
    exact ⟨⟨_, _, _, rfl, hn⟩, c, n, _ :: '_' :: rest, rfl, hc⟩

theorem ungroup?_underscore (c : Char) (rest : Text) : ungroup? (c :: '_' :: rest) =
    if c.isDigit then (ungroup? rest).map (c :: ·) else none :=
  rfl

theorem ungroup?_cons {c d : Char} (h : d ≠ '_') (rest : Text) : ungroup? (c :: d :: rest) =
    if c.isDigit then (ungroup? (d :: rest)).map (c :: ·) else none := by
  rw [ungroup?]
  · simp
  · simp [h]

theorem ungroup?_of_grouped (h : Grouped body digits) :
    ungroup? (body.map asciiChar) = some (digits.map Nat.digitChar) := by
  induction h with
  | last hn =>
    have hdigit := isDigit_digitChar (digitValue?_lt hn)
    simp [asciiChar_digit hn, ungroup?, hdigit]
  | digit hn hrest ih =>
    have hdigit := isDigit_digitChar (digitValue?_lt hn)
    obtain ⟨⟨d, m, rest, rfl, hd⟩, -⟩ := hrest.ends
    have hne : asciiChar d ≠ '_' := by
      rw [ne_eq, asciiChar_eq_iff (by decide) (by decide) (by decide)]
      rintro rfl
      cases hd
    rw [List.map_cons] at ih
    rw [List.map_cons, List.map_cons, ungroup?_cons hne, ih, asciiChar_digit hn, if_pos hdigit]
    rfl
  | separated hn _ ih =>
    have hdigit := isDigit_digitChar (digitValue?_lt hn)
    rw [List.map_cons, List.map_cons, asciiChar_of_lt (c := '_') (by decide), ungroup?_underscore,
      ih, asciiChar_digit hn, if_pos hdigit]
    rfl

theorem grouped_of_ungroup? {ascii : Text} (h : ungroup? (body.map asciiChar) = some ascii) :
    ∃ digits, Grouped body digits ∧ ascii = digits.map Nat.digitChar := by
  generalize htext : body.map asciiChar = text at h
  fun_induction ungroup? text generalizing body ascii with
  | case1 => cases h
  | case2 c hdigit =>
    obtain ⟨c, rfl, rfl⟩ := List.map_eq_singleton_iff.1 htext
    obtain ⟨n, hn, hascii⟩ := exists_digitValue hdigit
    cases h
    exact ⟨[n], .last hn, by rw [hascii]; rfl⟩
  | case3 c hdigit => cases h
  | case4 c rest hdigit ih =>
    obtain ⟨c, body, rfl, rfl, hbody⟩ := List.map_eq_cons_iff.1 htext
    obtain ⟨d, body, rfl, hd, rfl⟩ := List.map_eq_cons_iff.1 hbody
    obtain ⟨n, hn, hascii⟩ := exists_digitValue hdigit
    obtain rfl := (asciiChar_eq_iff (by decide) (by decide) (by decide)).1 hd
    obtain ⟨ascii, hrest, rfl⟩ := Option.map_eq_some_iff.1 h
    obtain ⟨digits, hgrouped, rfl⟩ := ih rfl hrest
    exact ⟨n :: digits, .separated hn hgrouped, by rw [hascii]; rfl⟩
  | case5 c rest hdigit => cases h
  | case6 c rest _ _ hdigit ih =>
    obtain ⟨c, body, rfl, rfl, rfl⟩ := List.map_eq_cons_iff.1 htext
    obtain ⟨n, hn, hascii⟩ := exists_digitValue hdigit
    obtain ⟨ascii, hrest, rfl⟩ := Option.map_eq_some_iff.1 h
    obtain ⟨digits, hgrouped, rfl⟩ := ih rfl hrest
    exact ⟨n :: digits, .digit hn hgrouped, by rw [hascii]; rfl⟩
  | case7 => cases h

theorem digitsValue_digitChar (h : ∀ n ∈ digits, n < 10) :
    digitsValue (digits.map Nat.digitChar) = decimalValue digits := by
  rw [digitsValue, decimalValue, List.foldl_map]
  refine List.foldl_ext _ _ 0 fun value n hn => ?_
  rw [Nat.toNat_digitChar_of_lt_ten (h n hn)]
  show 10 * value + (48 + n - 48) = _
  omega

theorem toInt?_grouped (h : Grouped body digits) (negative : Bool) :
    IntegerNumeral.toInt? ⟨negative, digits.map Nat.digitChar⟩ =
      if digits.length ≤ digitLimit then
        some (if negative then -(decimalValue digits : Int) else decimalValue digits)
      else none := by
  rw [IntegerNumeral.toInt?, List.length_map, digitsValue_digitChar h.lt_ten]

/-- A sign is its own ASCII form. -/
theorem map_asciiChar_eq_sign (h : IsSign sign) : text.map asciiChar = sign ↔ text = sign := by
  have hchar : ∀ c ∈ sign, c.toNat < 128 ∧ isAsciiSpace c = false ∧ c.isDigit = false := by
    rcases h with rfl | rfl | rfl <;> simp [isAsciiSpace]
  clear h
  induction sign generalizing text with
  | nil => simp
  | cons d sign ih =>
    obtain ⟨⟨hlt, hspace, hdigit⟩, hchar⟩ := List.forall_mem_cons.1 hchar
    cases text with
    | nil => simp
    | cons c text =>
      have hrest : text.map asciiChar = sign ↔ text = sign := ih hchar
      rw [List.map_cons, List.cons.injEq, List.cons.injEq, asciiChar_eq_iff hlt hspace hdigit,
        hrest]

theorem exists_sign (text : Text) : ∃ sign body, IsSign sign ∧ text = sign ++ body ∧
    takeSign text = (decide (sign = ['-']), body) := by
  rcases takeSign_cases text with ⟨body, rfl, h⟩ | ⟨body, rfl, h⟩ | h
  · exact ⟨['-'], body, .inr (.inr rfl), rfl, h⟩
  · exact ⟨['+'], body, .inr (.inl rfl), rfl, h⟩
  · exact ⟨[], text, .inl rfl, rfl, h⟩

theorem integerText_of_readInteger? (h : readInteger? text = some i) : IntegerText text i := by
  unfold readInteger? at h
  rw [asciiForm_eq_map] at h
  obtain ⟨left, right, hleft, hright, htext⟩ := exists_trimmed (text.map asciiChar)
  obtain ⟨sign, body, hsign, htrimmed, htake⟩ := exists_sign (trimSpaces (text.map asciiChar))
  rw [htake] at h
  obtain ⟨ascii, hungroup, hint⟩ := Option.bind_eq_some_iff.1 h
  rw [htrimmed] at htext
  -- the parts of the ASCII form are those of parts of the text
  obtain ⟨front, right, rfl, hfront, rfl⟩ := List.map_eq_append_iff.1 htext
  obtain ⟨left, middle, rfl, rfl, hmiddle⟩ := List.map_eq_append_iff.1 hfront
  obtain ⟨minus, body, rfl, hminus, rfl⟩ := List.map_eq_append_iff.1 hmiddle
  obtain rfl := (map_asciiChar_eq_sign hsign).1 hminus
  obtain ⟨digits, hgrouped, rfl⟩ := grouped_of_ungroup? hungroup
  rw [toInt?_grouped hgrouped] at hint
  split at hint
  · rename_i hlimit
    cases hint
    simp only [decide_eq_true_eq]
    refine .intro (fun c hc => ?_) hsign hgrouped hlimit fun c hc => ?_
    · exact isAsciiSpace_asciiChar.1 (hleft _ (List.mem_map_of_mem hc))
    · exact isAsciiSpace_asciiChar.1 (hright _ (List.mem_map_of_mem hc))
  · cases hint

/-- The ASCII form of a group starts and ends with a digit. -/
theorem Grouped.ascii_ends (h : Grouped body digits) :
    (∃ d rest, d.isDigit = true ∧ body.map asciiChar = d :: rest) ∧
      ∃ d rest, d.isDigit = true ∧ body.map asciiChar = rest ++ [d] := by
  obtain ⟨⟨c, n, rest, hfirst, hc⟩, c', n', rest', hlast, hc'⟩ := h.ends
  refine ⟨⟨n.digitChar, rest.map asciiChar, isDigit_digitChar (digitValue?_lt hc), ?_⟩,
    n'.digitChar, rest'.map asciiChar, isDigit_digitChar (digitValue?_lt hc'), ?_⟩
  · rw [hfirst, List.map_cons, asciiChar_digit hc]
  · rw [hlast, List.map_append, List.map_singleton, asciiChar_digit hc']

theorem not_isAsciiSpace_of_isDigit (h : c.isDigit = true) : isAsciiSpace c = false := by
  rw [Bool.eq_false_iff, ne_eq, isAsciiSpace_iff]
  rw [isDigit_iff] at h
  omega

theorem trimSpaces_integer (hleft : ∀ c ∈ left, isAsciiSpace c = true) (hsign : IsSign sign)
    (hgrouped : Grouped body digits) (hright : ∀ c ∈ right, isAsciiSpace c = true) :
    trimSpaces (left ++ (sign ++ body.map asciiChar) ++ right) = sign ++ body.map asciiChar := by
  obtain ⟨⟨d, rest, hd, hfirst⟩, d', rest', hd', hlast⟩ := hgrouped.ascii_ends
  refine trimSpaces_append hleft hright ?_ ?_
  · rcases hsign with rfl | rfl | rfl
    · rw [hfirst]
      exact stops_cons.2 (not_isAsciiSpace_of_isDigit hd)
    · exact stops_cons.2 (by decide)
    · exact stops_cons.2 (by decide)
  · rw [hlast, List.reverse_append, List.reverse_append]
    exact stops_cons.2 (not_isAsciiSpace_of_isDigit hd')

theorem readInteger?_of_integerText (h : IntegerText text i) : readInteger? text = some i := by
  obtain ⟨hleft, hsign, hgrouped, hlimit, hright⟩ := h
  have hspaces : ∀ s : Text, (∀ c ∈ s, IsSpace c) →
      ∀ c ∈ s.map asciiChar, isAsciiSpace c = true := by
    intro s hs c hc
    obtain ⟨d, hd, rfl⟩ := List.mem_map.1 hc
    exact isAsciiSpace_asciiChar.2 (hs d hd)
  obtain ⟨⟨d, rest, hd, hfirst⟩, -⟩ := hgrouped.ascii_ends
  rw [isDigit_iff] at hd
  rw [readInteger?, asciiForm_eq_map, List.map_append, List.map_append, List.map_append,
    (map_asciiChar_eq_sign hsign).2 rfl,
    trimSpaces_integer (hspaces _ hleft) hsign hgrouped (hspaces _ hright),
    takeSign_append hsign]
  · show (ungroup? _).bind _ = _
    rw [ungroup?_of_grouped hgrouped, Option.bind_some, toInt?_grouped hgrouped, if_pos hlimit]
    simp only [decide_eq_true_eq]
  · rw [hfirst, stops_cons]
    have hplus : d ≠ '+' := by
      rintro rfl
      revert hd
      decide
    have hminus : d ≠ '-' := by
      rintro rfl
      revert hd
      decide
    simp [hplus, hminus]

/-- **The reader of integers accepts their texts.**  These are digits of any script, in groups that
single underscores separate, behind a sign and between spaces. -/
theorem readInteger?_eq_some_iff : readInteger? text = some i ↔ IntegerText text i :=
  ⟨integerText_of_readInteger?, readInteger?_of_integerText⟩

/-! ## Numbers written out -/

theorem grouped_of_isDigits (h : IsDigits body) :
    Grouped body (body.map fun c => c.toNat - 48) := by
  obtain ⟨hne, hdigits⟩ := h
  have hvalue : ∀ c : Char, c.isDigit = true →
      Unicode.digitValue? c = some (c.toNat - 48) := by
    intro c hc
    have hascii := isDigit_iff.1 hc
    rw [digitValue?_of_lt (by omega), if_pos hc]
  induction body with
  | nil => exact absurd rfl hne
  | cons c body ih =>
    obtain ⟨hc, hrest⟩ := List.forall_mem_cons.1 hdigits
    cases body with
    | nil => exact .last (hvalue c hc)
    | cons d body => exact .digit (hvalue c hc) (ih (List.cons_ne_nil d body) hrest)

/-- A number that is not too long is read from its own text. -/
theorem integerText_ofNat (h : decimalLength n ≤ digitLimit) :
    IntegerText (Text.ofNat n) n := by
  have hgrouped := grouped_of_isDigits (isDigits_ofNat n)
  have hvalue : decimalValue ((Text.ofNat n).map fun c => c.toNat - 48) = n := by
    rw [decimalValue, List.foldl_map]
    exact digitsValue_ofNat n
  have hlength : ((Text.ofNat n).map fun c => c.toNat - 48).length ≤ digitLimit := by
    rw [List.length_map]
    exact h
  have hnone : ∀ c ∈ ([] : Text), IsSpace c := nofun
  have htext := IntegerText.intro hnone (.inl rfl) hgrouped hlength hnone
  rw [if_neg (by decide), hvalue] at htext
  simpa only [List.nil_append, List.append_nil] using htext

end

end ExprLang
