import ExprLang.Proofs.TextSearch

/-!
# Replacing what is found

Replacement goes over a text character by character.  What it does is told by the searches: it
parts the text at the first occurrence of the old text, replaces that, and goes on behind it.  The
parts do not depend on what is put between them, so inserted text is never looked at.

* `Text.Parted` — a text in parts, each up to the first occurrence in what is left.
* `Text.exists_parted`, `Text.Parted.unique` — the parts of a text are given by what is replaced.
* `Text.Parted.replaceAll_eq` — the new text between these parts is the result.
* `ReplacesFound`, `replacesFound` — the function of the library, told by the others.
-/

namespace ExprLang

namespace Text

variable {old new text rest part : Text} {parts parts' : List Text} {c : Char} {i : Nat}

/-! ## One replacement after the other -/

theorem replaceAll_of_absent (new : Text) (h : ¬ old <:+: text) :
    replaceAll old new text = text := by
  induction text with
  | nil => rw [replaceAll]
  | cons c rest ih =>
    rw [List.infix_cons_iff, not_or] at h
    rw [replaceAll, if_neg fun hhere => h.1 (List.isPrefixOf_iff_prefix.1 hhere.2), ih h.2]

/-- The first occurrence is replaced, and then what follows it is gone through. -/
theorem replaceAll_of_firstAt (new : Text) (hold : old ≠ []) (h : FirstAt old text i) :
    replaceAll old new text =
      text.take i ++ new ++ replaceAll old new (text.drop (i + old.length)) := by
  induction text generalizing i with
  | nil =>
    obtain ⟨hi, hlength⟩ := Nat.add_eq_zero_iff.1 (Nat.le_zero.1 h.occursAt.add_length_le)
    exact absurd (List.length_eq_zero_iff.1 hlength) hold
  | cons c rest ih =>
    cases i with
    | zero =>
      have hhere := List.isPrefixOf_iff_prefix.2 (firstAt_zero_iff.1 h)
      rw [replaceAll, if_pos ⟨hold, hhere⟩, Nat.zero_add]
      rfl
    | succ i =>
      have hnot : ¬ old <+: c :: rest := fun hhere =>
        h.not_before 0 (Nat.succ_pos i) (occursAt_zero_iff.2 hhere)
      rw [replaceAll, if_neg fun hhere => hnot (List.isPrefixOf_iff_prefix.1 hhere.2),
        ih ((firstAt_succ_iff hnot).1 h), Nat.add_right_comm]
      rfl

/-! ## The parts of a text -/

/-- The text falls into what is in front of the first occurrence of `old`, and the parts of what is
behind it; where `old` does not occur, the text is the last part. -/
inductive Parted (old : Text) : Text → List Text → Prop where
  | last {text : Text} : ¬ old <:+: text → Parted old text [text]
  | cons {text : Text} {i : Nat} {parts : List Text} : FirstAt old text i →
    Parted old (text.drop (i + old.length)) parts → Parted old text (text.take i :: parts)

theorem Parted.ne_nil (h : Parted old text parts) : parts ≠ [] := by
  cases h <;> exact List.cons_ne_nil _ _

/-- There is no end of empty texts in front of a text. -/
theorem Parted.old_ne_nil (h : Parted old text parts) : old ≠ [] := by
  rintro rfl
  induction h with
  | last hnot => exact hnot List.nil_infix
  | cons _ _ ih => exact ih

theorem exists_parted (hold : old ≠ []) (text : Text) : ∃ parts, Parted old text parts := by
  by_cases h : old <:+: text
  · obtain ⟨i, hfirst⟩ := exists_firstAt h
    have hlt : (text.drop (i + old.length)).length < text.length := by
      have hlength := hfirst.occursAt.add_length_le
      have hpos := List.length_pos_iff.2 hold
      rw [List.length_drop]
      omega
    obtain ⟨parts, hparts⟩ := exists_parted hold (text.drop (i + old.length))
    exact ⟨text.take i :: parts, .cons hfirst hparts⟩
  · exact ⟨[text], .last h⟩
termination_by text.length
decreasing_by exact hlt

/-- The parts are given by the text: each ends where `old` stands first. -/
theorem Parted.unique (h : Parted old text parts) (h' : Parted old text parts') :
    parts = parts' := by
  induction h generalizing parts' with
  | last hnot =>
    cases h' with
    | last => rfl
    | cons hfirst => exact absurd hfirst.occursAt.isInfix hnot
  | cons hfirst _ ih =>
    cases h' with
    | last hnot => exact absurd hfirst.occursAt.isInfix hnot
    | cons hfirst' hrest' =>
      obtain rfl := hfirst.unique hfirst'
      rw [ih hrest']

theorem joinWith_cons (separator part : Text) (h : parts ≠ []) :
    joinWith separator (part :: parts) = part ++ separator ++ joinWith separator parts := by
  obtain ⟨next, parts, rfl⟩ := List.exists_cons_of_ne_nil h
  simp [joinWith, List.intercalate]

theorem joinWith_singleton (separator part : Text) : joinWith separator [part] = part := by
  simp [joinWith, List.intercalate]

/-- The result has the new text between the parts. -/
theorem Parted.replaceAll_eq (h : Parted old text parts) (new : Text) :
    replaceAll old new text = joinWith new parts := by
  have hold := h.old_ne_nil
  induction h with
  | last hnot => rw [replaceAll_of_absent new hnot, joinWith_singleton]
  | cons hfirst hrest ih =>
    rw [replaceAll_of_firstAt new hold hfirst, ih, joinWith_cons _ _ hrest.ne_nil]

/-- The text has the old one between the parts. -/
theorem Parted.joinWith_eq (h : Parted old text parts) : joinWith old parts = text := by
  induction h with
  | last => rw [joinWith_singleton]
  | cons hfirst hrest ih =>
    rw [joinWith_cons _ _ hrest.ne_nil, ih, hfirst.occursAt.take_append_drop]

theorem replaceAll_self (old text : Text) : replaceAll old old text = text := by
  by_cases hold : old = []
  · rw [hold, replaceAll_nil_left]
  · obtain ⟨parts, hparts⟩ := exists_parted hold text
    rw [hparts.replaceAll_eq, hparts.joinWith_eq]

/-- Another separator makes a difference once for every two neighbours. -/
theorem length_joinWith (separator separator' : Text) (h : parts ≠ []) :
    ((joinWith separator' parts).length : Int) = (joinWith separator parts).length +
      (parts.length - 1) * ((separator'.length : Int) - separator.length) := by
  induction parts with
  | nil => exact absurd rfl h
  | cons part parts ih =>
    cases parts with
    | nil => simp [joinWith_singleton]
    | cons next parts =>
      have hne := List.cons_ne_nil next parts
      have hnext := ih hne
      rw [joinWith_cons _ _ hne, joinWith_cons _ _ hne]
      simp only [List.length_append, List.length_cons, Int.natCast_add, Int.natCast_one,
        Int.add_mul, Int.add_sub_cancel] at hnext ⊢
      omega

end Text

/-! ## The function of the library -/

namespace Library

open Text

theorem replace_eq (s old new : Text) : replace (.string s) (.string old) (.string new) =
    .ok (.string (replaceAll old new s)) := by
  unfold replace
  by_cases hold : old = []
  · rw [hold, replaceAll_nil_left]
    rfl
  · simp only [Value.toText_string, bind, Except.bind, if_neg hold]
    rfl

/-- How a text is replaced in the text `s`, told by the functions that search for it. -/
structure ReplacesFound (s old : Text) : Prop where
  /-- Nothing is replaced for the empty text, or for one that does not occur. -/
  unchanged : old = [] ∨ ¬ old <:+: s → ∀ new,
    replace (.string s) (.string old) (.string new) = .ok (.string s)
  /-- Otherwise the result is what stands before the first occurrence, the new text, and the result
  for what stands after it. -/
  recursion : old ≠ [] → old <:+: s → ∀ new, ∃ before after rest,
    substringBefore (.string s) (.string old) = .ok (.string before) ∧
    substringAfter (.string s) (.string old) = .ok (.string after) ∧
    replace (.string after) (.string old) (.string new) = .ok (.string rest) ∧
    replace (.string s) (.string old) (.string new) = .ok (.string (before ++ new ++ rest))
  /-- So the text falls into parts at the leftmost occurrences, one behind the other.  Every new
  text is put between the same parts, and its length counts once for each occurrence. -/
  parted : old ≠ [] → ∃ parts, (∀ parts', Parted old s parts' ↔ parts' = parts) ∧
    ∀ new, replace (.string s) (.string old) (.string new) = .ok (.string (joinWith new parts)) ∧
      ((joinWith new parts).length : Int) =
        s.length + (parts.length - 1) * ((new.length : Int) - old.length)
  /-- A text that is replaced by itself stays. -/
  self : replace (.string s) (.string old) (.string old) = .ok (.string s)

/-- **Replacement follows the searches.**  An empty text and one that does not occur are not
replaced.  Any other is replaced where it stands first, and then in what stands behind that: from
left to right, without overlap and never in the inserted text. -/
theorem replacesFound (s old : Text) : ReplacesFound s old where
  unchanged h new := by
    rw [replace_eq]
    rcases h with rfl | h
    · rw [replaceAll_nil_left]
    · rw [replaceAll_of_absent new h]
  recursion hold h new := by
    obtain ⟨i, hfirst⟩ := exists_firstAt h
    refine ⟨s.take i, s.drop (i + old.length), _, ?_, ?_, replace_eq _ old new, ?_⟩
    · rw [substringBefore, ofTexts_eq _ rfl rfl, substringBefore_of_firstAt hfirst]
    · rw [substringAfter, ofTexts_eq _ rfl rfl, substringAfter_of_firstAt hfirst]
    · rw [replace_eq, replaceAll_of_firstAt new hold hfirst]
  parted hold := by
    obtain ⟨parts, hparts⟩ := exists_parted hold s
    refine ⟨parts, fun parts' => ⟨fun h => h.unique hparts, fun h => h ▸ hparts⟩, fun new => ?_⟩
    have hlength := length_joinWith old new hparts.ne_nil
    rw [hparts.joinWith_eq] at hlength
    rw [replace_eq, hparts.replaceAll_eq]
    exact ⟨rfl, hlength⟩
  self := by rw [replace_eq, replaceAll_self]

/-- Of two occurrences that overlap the left one is replaced, and the text that is put in makes no
third one. -/
example : replaceAll "aba".toList "abab".toList "ababab".toList = "ababbab".toList := by
  cbv

end Library

end ExprLang
