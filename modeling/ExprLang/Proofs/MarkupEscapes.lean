import ExprLang.Library.Functions

/-!
# Escaped markup

Five characters have a meaning in markup, and each of them is written as an entity.  All entities
start with an ampersand, and none of them is the beginning of another one, so that a text can be
read back wherever an entity ends, also if it had entities in it before.

* `Text.unescapeMarkup` — entities replaced by their characters, from left to right.
* `Text.unescapeMarkup_append` — an escaped text is read back, whatever follows it.
* `Library.escapesMarkup` — an escaped text is safe, and it is the only one of its text.
-/

namespace ExprLang

namespace Text

/-- The entities, with the characters that they stand for. -/
def markupEntities : List (Text × Char) := [
  ("&amp;".toList, '&'), ("&lt;".toList, '<'), ("&gt;".toList, '>'), ("&#034;".toList, '"'),
  ("&#039;".toList, '\'')]

/-- The entity at the start of a text. -/
def entityAt? (text : Text) : Option (Text × Char) :=
  markupEntities.find? fun entity => entity.1.isPrefixOf text

/-- The text with the entities replaced by their characters, from left to right. -/
def unescapeMarkup : Text → Text
  | [] => []
  | c :: rest =>
    match entityAt? (c :: rest) with
    | some entity => entity.2 :: unescapeMarkup (rest.drop (entity.1.length - 1))
    | none => c :: unescapeMarkup rest
termination_by text => text.length
decreasing_by
  · simp only [List.length_drop, List.length_cons]
    omega
  · simp

variable {entity entity' : Text × Char} {text rest before after : Text} {c : Char}

/-! ## Entities -/

theorem exists_entity (h : entity ∈ markupEntities) :
    ∃ name, entity.1 = '&' :: name ∧ '&' ∉ name ∧ markupEscape entity.2 = entity.1 := by
  have hall : ∀ entity ∈ markupEntities, entity.1.head? = some '&' ∧ '&' ∉ entity.1.tail ∧
      markupEscape entity.2 = entity.1 := by decide
  obtain ⟨hhead, htail, hescape⟩ := hall entity h
  obtain ⟨name, hname⟩ := List.head?_eq_some_iff.1 hhead
  rw [hname] at htail
  exact ⟨name, hname, htail, hescape⟩

/-- A character is written as its entity, or as itself if there is none. -/
theorem markupEscape_cases (c : Char) :
    (∃ entity ∈ markupEntities, entity.2 = c ∧ markupEscape c = entity.1) ∨
      (∀ entity ∈ markupEntities, entity.2 ≠ c) ∧ markupEscape c = [c] := by
  by_cases h : ∃ entity ∈ markupEntities, entity.2 = c
  · obtain ⟨entity, hmem, rfl⟩ := h
    obtain ⟨name, -, -, hescape⟩ := exists_entity hmem
    exact .inl ⟨entity, hmem, rfl, hescape⟩
  · simp only [not_exists, not_and] at h
    refine .inr ⟨h, ?_⟩
    simp only [markupEntities, List.forall_mem_cons] at h
    obtain ⟨hamp, hlt, hgt, hquote, hapostrophe, -⟩ := h
    simp [markupEscape, Ne.symm hamp, Ne.symm hlt, Ne.symm hgt, Ne.symm hquote, Ne.symm hapostrophe]

/-- No entity is the beginning of another one. -/
theorem entity_unique (h : entity ∈ markupEntities) (h' : entity' ∈ markupEntities)
    (hstart : entity.1 <+: text) (hstart' : entity'.1 <+: text) : entity = entity' := by
  have hall : ∀ entity ∈ markupEntities, ∀ entity' ∈ markupEntities,
      entity.1 <+: entity'.1 → entity = entity' := by decide
  rcases List.prefix_or_prefix_of_prefix hstart hstart' with hle | hle
  · exact hall entity h entity' h' hle
  · exact (hall entity' h' entity h hle).symm

theorem entityAt?_append (h : entity ∈ markupEntities) (rest : Text) :
    entityAt? (entity.1 ++ rest) = some entity := by
  have hhere : entity.1 <+: entity.1 ++ rest := List.prefix_append _ _
  cases hfind : entityAt? (entity.1 ++ rest) with
  | none =>
    have := List.find?_eq_none.1 hfind entity h
    exact absurd (List.isPrefixOf_iff_prefix.2 hhere) this
  | some found =>
    rw [entityAt?] at hfind
    have hfound := List.find?_some hfind
    rw [entity_unique h (List.mem_of_find?_eq_some hfind) hhere
      (List.isPrefixOf_iff_prefix.1 hfound)]

/-- Every entity starts with an ampersand. -/
theorem entityAt?_of_ne (h : c ≠ '&') (rest : Text) : entityAt? (c :: rest) = none := by
  refine List.find?_eq_none.2 fun entity hentity hstart => ?_
  obtain ⟨name, hname, -, -⟩ := exists_entity hentity
  rw [hname] at hstart
  simp only [List.isPrefixOf, Bool.and_eq_true, beq_iff_eq] at hstart
  exact h hstart.1.symm

/-! ## Reading back -/

theorem unescapeMarkup_entity (h : entity ∈ markupEntities) (rest : Text) :
    unescapeMarkup (entity.1 ++ rest) = entity.2 :: unescapeMarkup rest := by
  have hentity := entityAt?_append h rest
  obtain ⟨name, hname, -, -⟩ := exists_entity h
  rw [hname, List.cons_append] at hentity ⊢
  rw [unescapeMarkup, hentity]
  simp [hname]

theorem unescapeMarkup_cons (h : c ≠ '&') (rest : Text) :
    unescapeMarkup (c :: rest) = c :: unescapeMarkup rest := by
  rw [unescapeMarkup, entityAt?_of_ne h]

theorem escapeMarkup_cons (c : Char) (rest : Text) :
    escapeMarkup (c :: rest) = markupEscape c ++ escapeMarkup rest :=
  List.flatMap_cons

theorem escapeMarkup_append (s t : Text) :
    escapeMarkup (s ++ t) = escapeMarkup s ++ escapeMarkup t :=
  List.flatMap_append

/-- What an escaped text is read as does not depend on what follows it. -/
theorem unescapeMarkup_append (s rest : Text) :
    unescapeMarkup (escapeMarkup s ++ rest) = s ++ unescapeMarkup rest := by
  induction s with
  | nil => rfl
  | cons c s ih =>
    rw [escapeMarkup_cons, List.append_assoc, List.cons_append, ← ih]
    rcases markupEscape_cases c with ⟨entity, hentity, rfl, hescape⟩ | ⟨hplain, hescape⟩
    · rw [hescape, unescapeMarkup_entity hentity]
    · have hne : c ≠ '&' := Ne.symm (hplain _ List.mem_cons_self)
      rw [hescape, List.singleton_append, unescapeMarkup_cons hne]

theorem unescapeMarkup_escapeMarkup (s : Text) : unescapeMarkup (escapeMarkup s) = s := by
  have h := unescapeMarkup_append s []
  rwa [List.append_nil, unescapeMarkup, List.append_nil] at h

/-! ## Safety -/

/-- Apart from the ampersand, no character of an escaped text has a meaning in markup. -/
theorem not_mem_escapeMarkup (h : entity ∈ markupEntities) (hne : entity.2 ≠ '&') (s : Text) :
    entity.2 ∉ escapeMarkup s := by
  have hall : ∀ entity ∈ markupEntities, entity.2 ≠ '&' →
      ∀ entity' ∈ markupEntities, entity.2 ∉ entity'.1 := by decide
  intro hmem
  obtain ⟨c, -, hc⟩ := List.mem_flatMap.1 hmem
  rcases markupEscape_cases c with ⟨entity', hentity', -, hescape⟩ | ⟨hplain, hescape⟩
  · rw [hescape] at hc
    exact hall entity h hne entity' hentity' hc
  · rw [hescape, List.mem_singleton] at hc
    exact hplain entity h hc

/-- An ampersand in what a character is written as is the start of its entity. -/
theorem entity_of_ampersand (h : markupEscape c = before ++ '&' :: after) :
    before = [] ∧ ∃ entity ∈ markupEntities, entity.1 = '&' :: after := by
  rcases markupEscape_cases c with ⟨entity, hentity, -, hescape⟩ | ⟨hplain, hescape⟩
  · obtain ⟨name, hname, hnot, -⟩ := exists_entity hentity
    rw [hescape, hname] at h
    cases before with
    | nil => exact ⟨rfl, entity, hentity, by rw [hname, h]; rfl⟩
    | cons d before =>
      obtain ⟨-, rfl⟩ := List.cons.inj h
      exact absurd (by simp) hnot
  · have hmem : '&' ∈ markupEscape c := by
      rw [h]
      simp
    rw [hescape, List.mem_singleton] at hmem
    exact absurd hmem (hplain _ List.mem_cons_self)

/-- An ampersand in an escaped text starts an entity. -/
theorem exists_entity_of_ampersand {s : Text} (h : escapeMarkup s = before ++ '&' :: after) :
    ∃ entity ∈ markupEntities, entity.1 <+: '&' :: after := by
  induction s generalizing before with
  | nil => simp [escapeMarkup] at h
  | cons c s ih =>
    rw [escapeMarkup_cons] at h
    -- the ampersand stands behind what the first character is written as, or in it
    rcases List.append_eq_append_iff.1 h with ⟨behind, -, hrest⟩ | ⟨inside, hescape, hinside⟩
    · exact ih hrest
    · cases inside with
      | nil =>
        have hrest : escapeMarkup s = [] ++ '&' :: after := hinside.symm
        exact ih hrest
      | cons d inside =>
        obtain ⟨rfl, rfl⟩ := List.cons.inj hinside
        obtain ⟨-, entity, hentity, heq⟩ := entity_of_ampersand hescape
        exact ⟨entity, hentity, by rw [heq]; exact List.prefix_append _ _⟩

end Text

/-! ## The function of the library -/

namespace Library

open Text

theorem escapeXml_eq (s : Text) : escapeXml (.string s) = .ok (.string (escapeMarkup s)) :=
  rfl

/-- What the escaped text has to do with the text `s`. -/
structure EscapesMarkup (s escaped : Text) : Prop where
  escapeXml_eq : escapeXml (.string s) = .ok (.string escaped)
  /-- No angle bracket and no quote is left. -/
  safe : ∀ c ∈ ['<', '>', '"', '\''], c ∉ escaped
  /-- Every ampersand starts an entity. -/
  ampersand : ∀ before after, escaped = before ++ '&' :: after →
    ∃ entity ∈ markupEntities, entity.1 <+: '&' :: after
  reversible : unescapeMarkup escaped = s
  injective : ∀ t, escapeXml (.string t) = .ok (.string escaped) → t = s
  append : ∀ t, ∃ escaped', escapeXml (.string t) = .ok (.string escaped') ∧
    escapeXml (.string (s ++ t)) = .ok (.string (escaped ++ escaped'))

/-- **Escaped markup is safe and can be read back.**  For every text there is an escaped one,
without the characters that markup gives a meaning to, but for ampersands that start an entity.
Replacing the entities by their characters gives the text again, so no other text is escaped in the
same way.  Texts one behind the other are escaped each on its own. -/
theorem escapesMarkup (s : Text) : ∃ escaped, EscapesMarkup s escaped := by
  refine ⟨escapeMarkup s, ?_⟩
  constructor
  case escapeXml_eq => exact Library.escapeXml_eq s
  case safe =>
    intro c hc
    have hentity : ∀ c ∈ ['<', '>', '"', '\''], c ≠ '&' ∧ c ∈ markupEntities.map Prod.snd := by
      simp [markupEntities]
    obtain ⟨hne, hmem⟩ := hentity c hc
    obtain ⟨entity, hentity, rfl⟩ := List.mem_map.1 hmem
    exact not_mem_escapeMarkup hentity hne s
  case ampersand => exact fun before after h => exists_entity_of_ampersand h
  case reversible => exact unescapeMarkup_escapeMarkup s
  case injective =>
    intro t ht
    simp only [Library.escapeXml_eq, Except.ok.injEq, Value.string.injEq] at ht
    rw [← unescapeMarkup_escapeMarkup s, ← ht, unescapeMarkup_escapeMarkup]
  case append =>
    intro t
    refine ⟨escapeMarkup t, Library.escapeXml_eq t, ?_⟩
    rw [Library.escapeXml_eq, escapeMarkup_append]

/-- A text that has an entity in it already, and ends within one. -/
example : escapeMarkup "&lt;&am".toList = "&amp;lt;&amp;am".toList ∧
    unescapeMarkup "&amp;lt;&amp;am".toList = "&lt;&am".toList := by
  cbv

end Library

end ExprLang
