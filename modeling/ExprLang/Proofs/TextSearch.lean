import ExprLang.Library.Functions

/-!
# Searching a text in seven ways

The functions that search for a text in another one answer seven questions about its first
occurrence.  They are written one by one, with cases of their own for the empty text and for one
that does not occur, and still say the same.

* `Text.OccursAt`, `Text.FirstAt` — where a text stands in another one, and where it does so first.
* `Text.indexOf?_eq_some_iff`, `Text.occurs_iff` — the search finds the first occurrence, if any.
* `Text.substringBefore_of_firstAt`, `Text.substringAfter_of_firstAt` — what stands around it.
* `SearchAnswers.Agree` — what the answers have to do with each other and with the texts.
* `exists_searchAnswers` — all questions have answers, and these agree.
-/

namespace ExprLang

namespace Text

/-! ## Occurrences -/

/-- The needle stands in the text behind `i` characters. -/
def OccursAt (needle text : Text) (i : Nat) : Prop :=
  ∃ before after, text = before ++ needle ++ after ∧ before.length = i

/-- The needle stands there and nowhere before. -/
structure FirstAt (needle text : Text) (i : Nat) : Prop where
  occursAt : OccursAt needle text i
  not_before : ∀ j < i, ¬ OccursAt needle text j

variable {needle text rest : Text} {c : Char} {i j : Nat}

theorem occursAt_zero_iff : OccursAt needle text 0 ↔ needle <+: text := by
  constructor
  · rintro ⟨before, after, rfl, hlength⟩
    rw [List.length_eq_zero_iff.1 hlength]
    exact List.prefix_append needle after
  · rintro ⟨after, rfl⟩
    exact ⟨[], after, rfl, rfl⟩

theorem occursAt_succ_iff : OccursAt needle (c :: rest) (i + 1) ↔ OccursAt needle rest i := by
  constructor
  · rintro ⟨before, after, htext, hlength⟩
    cases before with
    | nil => cases hlength
    | cons d before =>
      obtain ⟨-, rfl⟩ := List.cons.inj htext
      exact ⟨before, after, rfl, Nat.succ.inj hlength⟩
  · rintro ⟨before, after, rfl, rfl⟩
    exact ⟨c :: before, after, rfl, rfl⟩

theorem exists_occursAt_iff : (∃ i, OccursAt needle text i) ↔ needle <:+: text := by
  constructor
  · rintro ⟨i, before, after, rfl, -⟩
    exact ⟨before, after, rfl⟩
  · rintro ⟨before, after, rfl⟩
    exact ⟨before.length, before, after, rfl, rfl⟩

theorem OccursAt.isInfix (h : OccursAt needle text i) : needle <:+: text :=
  exists_occursAt_iff.1 ⟨i, h⟩

/-- An occurrence lies within the text. -/
theorem OccursAt.add_length_le (h : OccursAt needle text i) :
    i + needle.length ≤ text.length := by
  obtain ⟨before, after, rfl, rfl⟩ := h
  simp

theorem OccursAt.take_append_drop (h : OccursAt needle text i) :
    text.take i ++ needle ++ text.drop (i + needle.length) = text := by
  obtain ⟨before, after, rfl, rfl⟩ := h
  rw [← List.length_append, List.drop_left, List.append_assoc before, List.take_left,
    List.append_assoc]

theorem firstAt_zero_iff : FirstAt needle text 0 ↔ needle <+: text :=
  ⟨fun h => occursAt_zero_iff.1 h.occursAt, fun h => ⟨occursAt_zero_iff.2 h, nofun⟩⟩

/-- Behind a character at which the needle does not stand, the first occurrence is that of the
rest. -/
theorem firstAt_succ_iff (h : ¬ needle <+: c :: rest) :
    FirstAt needle (c :: rest) (i + 1) ↔ FirstAt needle rest i := by
  constructor
  · intro hfirst
    refine ⟨occursAt_succ_iff.1 hfirst.occursAt, fun j hj hoccurs => ?_⟩
    exact hfirst.not_before (j + 1) (Nat.succ_lt_succ hj) (occursAt_succ_iff.2 hoccurs)
  · intro hfirst
    refine ⟨occursAt_succ_iff.2 hfirst.occursAt, fun j hj hoccurs => ?_⟩
    cases j with
    | zero => exact h (occursAt_zero_iff.1 hoccurs)
    | succ j => exact hfirst.not_before j (Nat.lt_of_succ_lt_succ hj) (occursAt_succ_iff.1 hoccurs)

theorem FirstAt.unique (h : FirstAt needle text i) (h' : FirstAt needle text j) : i = j := by
  rcases Nat.lt_trichotomy i j with hlt | rfl | hlt
  · exact absurd h.occursAt (h'.not_before i hlt)
  · rfl
  · exact absurd h'.occursAt (h.not_before j hlt)

/-! ## The search -/

theorem occurs_iff : occurs needle text = true ↔ needle <:+: text := by
  induction text with
  | nil => simp [occurs]
  | cons c rest ih => simp [occurs, ih, List.infix_cons_iff]

theorem indexOf?_eq_some_iff : indexOf? needle text = some i ↔ FirstAt needle text i := by
  induction text generalizing i with
  | nil =>
    rw [indexOf?]
    constructor
    · intro h
      split at h
      · rename_i hempty
        cases h
        exact firstAt_zero_iff.2 (by simp [List.isEmpty_iff.1 hempty])
      · cases h
    · intro h
      have hlength := h.occursAt.add_length_le
      simp only [List.length_nil, Nat.le_zero_eq, Nat.add_eq_zero_iff, List.length_eq_zero_iff]
        at hlength
      obtain ⟨rfl, rfl⟩ := hlength
      rfl
  | cons c rest ih =>
    rw [indexOf?]
    by_cases hhere : needle <+: c :: rest
    · rw [if_pos (List.isPrefixOf_iff_prefix.2 hhere), Option.some.injEq]
      have hzero := firstAt_zero_iff.2 hhere
      exact ⟨fun h => h ▸ hzero, fun h => hzero.unique h⟩
    · rw [if_neg (mt List.isPrefixOf_iff_prefix.1 hhere), Option.map_eq_some_iff]
      cases i with
      | zero => simp [firstAt_zero_iff, hhere]
      | succ i => simp [firstAt_succ_iff hhere, ih]

theorem indexOf?_eq_none_iff : indexOf? needle text = none ↔ ¬ needle <:+: text := by
  rw [← occurs_iff]
  induction text with
  | nil => simp [indexOf?, occurs]
  | cons c rest ih =>
    rw [indexOf?, occurs]
    cases needle.isPrefixOf (c :: rest) <;> simp [ih]

/-- What occurs has a first occurrence. -/
theorem exists_firstAt (h : needle <:+: text) : ∃ i, FirstAt needle text i := by
  cases hindex : indexOf? needle text with
  | none => exact absurd h (indexOf?_eq_none_iff.1 hindex)
  | some i => exact ⟨i, indexOf?_eq_some_iff.1 hindex⟩

/-! ## Around the first occurrence -/

/-- The empty text stands in front of every text. -/
theorem FirstAt.eq_zero_of_nil (h : FirstAt [] text i) : i = 0 :=
  h.unique (firstAt_zero_iff.2 List.nil_prefix)

theorem substringBefore_of_firstAt (h : FirstAt needle text i) :
    substringBefore text needle = text.take i := by
  unfold substringBefore cut?
  split
  · rename_i hempty
    subst hempty
    rw [h.eq_zero_of_nil, List.take_zero]
  · rw [indexOf?_eq_some_iff.2 h]
    rfl

theorem substringAfter_of_firstAt (h : FirstAt needle text i) :
    substringAfter text needle = text.drop (i + needle.length) := by
  unfold substringAfter cut?
  split
  · rename_i hempty
    subst hempty
    rw [h.eq_zero_of_nil]
    rfl
  · rw [indexOf?_eq_some_iff.2 h]
    rfl

theorem substringBefore_of_absent (h : ¬ needle <:+: text) : substringBefore text needle = [] := by
  unfold substringBefore cut?
  rw [indexOf?_eq_none_iff.2 h]
  split <;> rfl

theorem substringAfter_of_absent (h : ¬ needle <:+: text) : substringAfter text needle = [] := by
  have hne : needle ≠ [] := by
    rintro rfl
    exact h List.nil_infix
  unfold substringAfter cut?
  rw [if_neg hne, indexOf?_eq_none_iff.2 h]
  rfl

theorem substring_to (h : i ≤ text.length) : substring text 0 i = text.take i := by
  have hstop : ¬ ((i : Int) < 0 ∨ (text.length : Int) < i) := by omega
  simp only [substring, if_neg hstop]
  rfl

theorem substring_from (text : Text) (i : Nat) : substring text i (-1) = text.drop i := by
  have hstop : (-1 : Int) < 0 ∨ (text.length : Int) < -1 := by omega
  simp only [substring, if_pos hstop, List.take_length]
  rfl

theorem infix_upper {s t : Text} (h : t <:+: s) : Unicode.upper t <:+: Unicode.upper s := by
  obtain ⟨before, after, rfl⟩ := h
  rw [Unicode.upper_append, Unicode.upper_append]
  exact ⟨_, _, rfl⟩

end Text

/-! ## The functions of the library -/

namespace Library

open Text

/-- Answers to the questions about a text in another one: whether it occurs, also with upper and
lower case taken for the same, whether it stands at the start and at the end, where it stands first,
and what is in front of that place and behind it. -/
structure SearchAnswers where
  contains : Bool
  containsIgnoreCase : Bool
  startsWith : Bool
  endsWith : Bool
  index : Int
  before : Text
  after : Text

namespace SearchAnswers

/-- The answers are those that the functions give for two values. -/
structure Given (answers : SearchAnswers) (v w : Value) : Prop where
  contains_eq : Library.contains v w = .ok (.boolean answers.contains)
  containsIgnoreCase_eq :
    Library.containsIgnoreCase v w = .ok (.boolean answers.containsIgnoreCase)
  startsWith_eq : Library.startsWith v w = .ok (.boolean answers.startsWith)
  endsWith_eq : Library.endsWith v w = .ok (.boolean answers.endsWith)
  indexOf_eq : Library.indexOf v w = .ok (.long answers.index)
  substringBefore_eq : Library.substringBefore v w = .ok (.string answers.before)
  substringAfter_eq : Library.substringAfter v w = .ok (.string answers.after)

/-- What the answers say of an occurrence of `t` in the text `s` of the value `v`: it is the first
one, it parts the text into what is in front and behind, and both can be had by its index. -/
structure Found (answers : SearchAnswers) (v : Value) (s t : Text) : Prop where
  index_nonneg : 0 ≤ answers.index
  firstAt : FirstAt t s answers.index.toNat
  length_before : answers.before.length = answers.index
  parts : answers.before ++ t ++ answers.after = s
  substring_before :
    substring v (.long 0) (.long answers.index) = .ok (.string answers.before)
  substring_after :
    substring v (.long (answers.index + t.length)) (.long (-1)) = .ok (.string answers.after)

/-- The answers agree with each other and with the texts `s` of the value `v` and `t`. -/
structure Agree (answers : SearchAnswers) (v : Value) (s t : Text) : Prop where
  contains_iff : answers.contains = true ↔ 0 ≤ answers.index
  startsWith_iff : answers.startsWith = true ↔ answers.index = 0
  found : answers.contains = true → answers.Found v s t
  absent : answers.contains = false →
    answers.index = -1 ∧ answers.before = [] ∧ answers.after = []
  contains_of_endsWith : answers.endsWith = true → answers.contains = true
  containsIgnoreCase_of_contains : answers.contains = true → answers.containsIgnoreCase = true
  contains_iff_infix : answers.contains = true ↔ t <:+: s
  startsWith_iff_prefix : answers.startsWith = true ↔ t <+: s
  endsWith_iff_suffix : answers.endsWith = true ↔ t <:+ s

end SearchAnswers

variable {v w : Value} {s t : Text}

theorem ofTexts_eq (f : Text → Text → Value) (hv : v.toText = .ok s) (hw : w.toText = .ok t) :
    ofTexts f v w = .ok (f s t) := by
  simp only [ofTexts, hv, hw]
  rfl

theorem ofTextsReversed_eq (f : Text → Text → Value) (hv : v.toText = .ok s)
    (hw : w.toText = .ok t) : ofTextsReversed f v w = .ok (f s t) := by
  simp only [ofTextsReversed, hv, hw]
  rfl

theorem substring_eq (hv : v.toText = .ok s) (first last : Int) :
    substring v (.long first) (.long last) = .ok (.string (Text.substring s first last)) := by
  simp only [substring, hv]
  rfl

namespace SearchAnswers

/-- The answers, as the searches in two texts give them. -/
def ofTexts (s t : Text) : SearchAnswers where
  contains := occurs t s
  containsIgnoreCase := occurs (Unicode.upper t) (Unicode.upper s)
  startsWith := t.isPrefixOf s
  endsWith := t.isSuffixOf s
  index := match indexOf? t s with
    | some i => i
    | none => -1
  before := Text.substringBefore s t
  after := Text.substringAfter s t

theorem given_ofTexts (hv : v.toText = .ok s) (hw : w.toText = .ok t) :
    (ofTexts s t).Given v w where
  contains_eq := ofTextsReversed_eq _ hv hw
  containsIgnoreCase_eq := ofTextsReversed_eq _ hv hw
  startsWith_eq := ofTexts_eq _ hv hw
  endsWith_eq := ofTexts_eq _ hv hw
  indexOf_eq := by
    rw [Library.indexOf, ofTexts_eq _ hv hw, ofTexts]
    cases indexOf? t s <;> rfl
  substringBefore_eq := ofTexts_eq _ hv hw
  substringAfter_eq := ofTexts_eq _ hv hw

theorem index_ofTexts_of_firstAt {i : Nat} (h : FirstAt t s i) : (ofTexts s t).index = i := by
  rw [ofTexts, indexOf?_eq_some_iff.2 h]

theorem index_ofTexts_of_absent (h : ¬ t <:+: s) : (ofTexts s t).index = -1 := by
  rw [ofTexts, indexOf?_eq_none_iff.2 h]

theorem found_ofTexts (hv : v.toText = .ok s) (h : t <:+: s) : (ofTexts s t).Found v s t := by
  obtain ⟨i, hi⟩ := exists_firstAt h
  have hindex : (ofTexts s t).index = i := index_ofTexts_of_firstAt hi
  have hbefore : (ofTexts s t).before = s.take i := substringBefore_of_firstAt hi
  have hafter : (ofTexts s t).after = s.drop (i + t.length) := substringAfter_of_firstAt hi
  have hbound : i + t.length ≤ s.length := hi.occursAt.add_length_le
  have hlength : i ≤ s.length := Nat.le_trans (Nat.le_add_right i t.length) hbound
  constructor
  case index_nonneg =>
    rw [hindex]
    exact Int.natCast_nonneg i
  case firstAt =>
    rw [hindex]
    exact hi
  case length_before => rw [hindex, hbefore, List.length_take_of_le hlength]
  case parts =>
    rw [hbefore, hafter]
    exact hi.occursAt.take_append_drop
  case substring_before =>
    rw [hindex, substring_eq hv, substring_to hlength, hbefore]
  case substring_after =>
    rw [hindex, substring_eq hv, ← Int.natCast_add, substring_from, hafter]

theorem agree_ofTexts (hv : v.toText = .ok s) : (ofTexts s t).Agree v s t := by
  have hcontains : (ofTexts s t).contains = true ↔ t <:+: s := occurs_iff
  have hstarts : (ofTexts s t).startsWith = true ↔ t <+: s := List.isPrefixOf_iff_prefix
  have hends : (ofTexts s t).endsWith = true ↔ t <:+ s := List.isSuffixOf_iff_suffix
  constructor
  case contains_iff =>
    rw [hcontains]
    refine ⟨fun h => (found_ofTexts hv h).index_nonneg, fun hindex => ?_⟩
    refine Decidable.byContradiction fun hnot => ?_
    rw [index_ofTexts_of_absent hnot] at hindex
    cases hindex
  case startsWith_iff =>
    rw [hstarts]
    constructor
    · intro h
      rw [index_ofTexts_of_firstAt (firstAt_zero_iff.2 h)]
      rfl
    · intro hindex
      by_cases h : t <:+: s
      · have hfirst := (found_ofTexts hv h).firstAt
        rw [hindex] at hfirst
        exact firstAt_zero_iff.1 hfirst
      · rw [index_ofTexts_of_absent h] at hindex
        cases hindex
  case found => exact fun h => found_ofTexts hv (hcontains.1 h)
  case absent =>
    intro h
    have hnot : ¬ t <:+: s := fun hinfix => by
      rw [hcontains.2 hinfix] at h
      cases h
    exact ⟨index_ofTexts_of_absent hnot, substringBefore_of_absent hnot,
      substringAfter_of_absent hnot⟩
  case contains_of_endsWith => exact fun h => hcontains.2 (hends.1 h).isInfix
  case containsIgnoreCase_of_contains => exact fun h => occurs_iff.2 (infix_upper (hcontains.1 h))
  case contains_iff_infix => exact hcontains
  case startsWith_iff_prefix => exact hstarts
  case endsWith_iff_suffix => exact hends

end SearchAnswers

/-- **The searches in a text agree.**  For all values that have texts, the seven functions give
answers.  A text occurs exactly if its index is not negative, and stands at the start exactly if
that is zero.  If it occurs, then at the index and nowhere before; what stands in front of it and
behind it makes up the whole with it, and can be cut out by the index as well, also for the empty
text.  If it does not occur, there is nothing in front of it and nothing behind it.  What stands at
the end occurs, and what occurs does so when case is ignored. -/
theorem exists_searchAnswers (hv : v.toText = .ok s) (hw : w.toText = .ok t) :
    ∃ answers : SearchAnswers, answers.Given v w ∧ answers.Agree v s t :=
  ⟨.ofTexts s t, SearchAnswers.given_ofTexts hv hw, SearchAnswers.agree_ofTexts hv⟩

/-- A text with a word in two places, which overlap, and at its end. -/
theorem exists_searchAnswers_overlap :
    let v := Value.string "aababa".toList
    let w := Value.string "aba".toList
    v.toText = .ok "aababa".toList ∧ w.toText = .ok "aba".toList ∧
      (∃ answers : SearchAnswers, answers.Given v w ∧
        answers.Agree v "aababa".toList "aba".toList) ∧
      indexOf v w = .ok (.long 1) ∧ substringAfter v w = .ok (.string "ba".toList) := by
  intro v w
  have hv : v.toText = .ok "aababa".toList := rfl
  have hw : w.toText = .ok "aba".toList := rfl
  exact ⟨hv, hw, exists_searchAnswers hv hw, rfl, rfl⟩

end Library

end ExprLang
