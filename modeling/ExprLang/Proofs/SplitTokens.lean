import ExprLang.Proofs.Replacement

/-!
# Splitting at delimiters

A text is split in one pass that carries the token read so far, and hands it on at a delimiter and
at the end unless it is empty.  What comes out does not mention the pass: the stretches of the text
without delimiters that reach as far as they can, from left to right.

* `Text.StretchAt`, `Text.MaximalAt` — stretches without delimiters, and those in no longer one.
* `Text.maximalAt_iff` — the latter end where a delimiter stands, or the text does.
* `Text.Reading`, `Text.runsFrom_fieldsFrom` — a state of the pass, and what it still finds.
* `Library.split_tokens` — the tokens of a text, and tokens that are joined and split again.
-/

namespace ExprLang

namespace Text

variable {delimiters text run wider front current rest : Text} {c : Char} {i j k : Nat}

/-! ## Stretches without delimiters -/

/-- A stretch of the text without delimiters stands behind `i` characters. -/
structure StretchAt (delimiters text run : Text) (i : Nat) : Prop where
  occursAt : OccursAt run text i
  ne_nil : run ≠ []
  free : ∀ c ∈ run, c ∉ delimiters

/-- A stretch that is part of no longer one. -/
structure MaximalAt (delimiters text run : Text) (i : Nat) : Prop
    extends StretchAt delimiters text run i where
  maximal : ∀ {wider : Text} {j : Nat}, StretchAt delimiters text wider j →
    j ≤ i → i + run.length ≤ j + wider.length → wider = run ∧ j = i

/-- A character that is no delimiter stands behind `k` others. -/
def FreeAt (delimiters text : Text) (k : Nat) : Prop :=
  ∃ c, text[k]? = some c ∧ c ∉ delimiters

theorem OccursAt.eq_take_drop (h : OccursAt run text i) :
    run = (text.drop i).take run.length := by
  obtain ⟨before, after, rfl, rfl⟩ := h
  simp

theorem OccursAt.getElem? (h : OccursAt run text i) (hk : k < run.length) :
    text[i + k]? = run[k]? := by
  obtain ⟨before, after, rfl, rfl⟩ := h
  rw [List.append_assoc, List.getElem?_append_right (by omega), Nat.add_sub_cancel_left,
    List.getElem?_append_left hk]

theorem StretchAt.length_pos (h : StretchAt delimiters text run i) : 0 < run.length :=
  List.length_pos_iff.2 h.ne_nil

theorem StretchAt.freeAt (h : StretchAt delimiters text run i) (hik : i ≤ k)
    (hk : k < i + run.length) : FreeAt delimiters text k := by
  obtain ⟨k, rfl⟩ := Nat.exists_eq_add_of_le hik
  have hlt : k < run.length := by omega
  refine ⟨run[k], ?_, h.free _ (List.getElem_mem hlt)⟩
  rw [h.occursAt.getElem? hlt, List.getElem?_eq_getElem hlt]

/-- A stretch can be made longer by a free character in front of it. -/
theorem StretchAt.cons (h : StretchAt delimiters text run (k + 1))
    (hfree : FreeAt delimiters text k) : ∃ c, StretchAt delimiters text (c :: run) k := by
  obtain ⟨c, hc, hnot⟩ := hfree
  obtain ⟨before, after, rfl, hlength⟩ := h.occursAt
  obtain rfl | ⟨front, d, rfl⟩ := before.eq_nil_or_concat
  · simp at hlength
  · have hlength : front.length = k := by simpa using hlength
    have hd : d = c := by
      subst hlength
      simpa using hc
    subst hd
    refine ⟨d, ⟨front, after, by simp, hlength⟩, by simp, ?_⟩
    intro x hx
    rcases List.mem_cons.1 hx with rfl | hx
    · exact hnot
    · exact h.free x hx

/-- And by one behind it. -/
theorem StretchAt.concat (h : StretchAt delimiters text run i)
    (hfree : FreeAt delimiters text (i + run.length)) :
    ∃ c, StretchAt delimiters text (run ++ [c]) i := by
  obtain ⟨c, hc, hnot⟩ := hfree
  obtain ⟨before, after, rfl, rfl⟩ := h.occursAt
  cases after with
  | nil => simp at hc
  | cons d after =>
    have hd : d = c := by
      rw [← List.length_append] at hc
      simpa using hc
    subst hd
    refine ⟨d, ⟨before, after, by simp, rfl⟩, by simp, ?_⟩
    intro x hx
    rcases List.mem_append.1 hx with hx | hx
    · exact h.free x hx
    · rw [List.mem_singleton.1 hx]
      exact hnot

/-- A stretch is part of no longer one if no free character is next to it. -/
theorem maximalAt_iff : MaximalAt delimiters text run i ↔ StretchAt delimiters text run i ∧
    (∀ k, k + 1 = i → ¬ FreeAt delimiters text k) ∧
    ¬ FreeAt delimiters text (i + run.length) := by
  constructor
  · intro h
    refine ⟨h.toStretchAt, ?_, ?_⟩
    · rintro k rfl hfree
      obtain ⟨c, hwider⟩ := h.toStretchAt.cons hfree
      have := (h.maximal hwider (by omega) (by simp; omega)).2
      omega
    · intro hfree
      obtain ⟨c, hwider⟩ := h.toStretchAt.concat hfree
      have := (h.maximal hwider (by omega) (by simp)).1
      simp at this
  · rintro ⟨hstretch, hbefore, hbehind⟩
    refine ⟨hstretch, ?_⟩
    intro wider j hwider hji hlength
    have hij : j = i := by
      refine Nat.le_antisymm hji (Nat.le_of_not_lt fun hlt => ?_)
      refine hbefore (i - 1) (by omega) (hwider.freeAt (by omega) ?_)
      have := hstretch.length_pos
      omega
    subst hij
    have hlengths : wider.length = run.length := by
      refine Nat.le_antisymm (Nat.le_of_not_lt fun hlt => ?_) (by omega)
      exact hbehind (hwider.freeAt (by omega) (by omega))
    refine ⟨?_, rfl⟩
    rw [hwider.occursAt.eq_take_drop, hlengths, ← hstretch.occursAt.eq_take_drop]

/-- Two maximal stretches with a character in common are one. -/
theorem MaximalAt.unique (h : MaximalAt delimiters text run i)
    (h' : MaximalAt delimiters text wider j) (hik : i ≤ k) (hk : k < i + run.length)
    (hjk : j ≤ k) (hk' : k < j + wider.length) : run = wider ∧ i = j := by
  obtain ⟨hstretch, hbefore, hbehind⟩ := maximalAt_iff.1 h
  obtain ⟨hstretch', hbefore', hbehind'⟩ := maximalAt_iff.1 h'
  have hij : i = j := by
    rcases Nat.lt_trichotomy i j with hlt | heq | hlt
    · exact absurd (hstretch.freeAt (by omega) (by omega)) (hbefore' (j - 1) (by omega))
    · exact heq
    · exact absurd (hstretch'.freeAt (by omega) (by omega)) (hbefore (i - 1) (by omega))
  subst hij
  refine h'.maximal hstretch (Nat.le_refl i) (Nat.le_of_not_lt fun hlt => ?_)
  exact hbehind (hstretch'.freeAt (by omega) (by omega))

/-! ## The pass -/

theorem freeAt_behind : FreeAt delimiters (front ++ c :: rest) front.length ↔ c ∉ delimiters := by
  simp [FreeAt]

/-- Nothing is left to be found behind the end. -/
theorem MaximalAt.lt_length (h : MaximalAt delimiters text run i) : i < text.length := by
  have := h.occursAt.add_length_le
  have := h.length_pos
  omega

/-- A state of the pass: the characters in front of the token that is being read, and that token.
No character of it is a delimiter, and it has no free character in front. -/
structure Reading (delimiters front current : Text) : Prop where
  starts : ∀ k, k + 1 = front.length → ¬ FreeAt delimiters front k
  free : ∀ c ∈ current, c ∉ delimiters

theorem Reading.start : Reading delimiters [] [] where
  starts k hk := by simp at hk
  free c hc := by cases hc

/-- A delimiter ends the token, and whatever stands in front of it is behind the pass. -/
theorem Reading.delimiter (hc : c ∈ delimiters) (front : Text) :
    Reading delimiters (front ++ [c]) [] where
  starts k hk := by
    simp only [List.length_append, List.length_singleton, Nat.add_right_cancel_iff] at hk
    subst hk
    rw [freeAt_behind]
    exact fun hnot => hnot hc
  free d hd := by cases hd

theorem Reading.free_character (h : Reading delimiters front current) (hc : c ∉ delimiters) :
    Reading delimiters front (current ++ [c]) where
  starts := h.starts
  free d hd := by
    rcases List.mem_append.1 hd with hd | hd
    · exact h.free d hd
    · rw [List.mem_singleton.1 hd]
      exact hc

/-- The token that is being read is maximal if no free character follows. -/
theorem Reading.maximalAt (h : Reading delimiters front current) (hne : current ≠ [])
    (hrest : ¬ FreeAt delimiters (front ++ current ++ rest) (front.length + current.length)) :
    MaximalAt delimiters (front ++ current ++ rest) current front.length := by
  refine maximalAt_iff.2 ⟨⟨⟨front, rest, rfl, rfl⟩, hne, h.free⟩, ?_, hrest⟩
  rintro k hk ⟨c, hc, hnot⟩
  refine h.starts k hk ⟨c, ?_, hnot⟩
  rwa [List.append_assoc, List.getElem?_append_left (by omega)] at hc

/-- What is maximal from the token on is that token, or stands behind the character that follows. -/
theorem Reading.maximalAt_cases (h : Reading delimiters front current)
    (hrest : ¬ FreeAt delimiters (front ++ current ++ rest) (front.length + current.length))
    (hmax : MaximalAt delimiters (front ++ current ++ rest) run i) (hi : front.length ≤ i) :
    current ≠ [] ∧ i = front.length ∧ run = current ∨ front.length + current.length + 1 ≤ i := by
  have hpos := hmax.length_pos
  rcases Nat.lt_trichotomy i (front.length + current.length) with hlt | heq | hlt
  · have hne : current ≠ [] := by
      rintro rfl
      simp at hlt
      omega
    obtain ⟨hrun, hoffset⟩ := hmax.unique (h.maximalAt hne hrest) (Nat.le_refl i) (by omega) hi hlt
    exact .inl ⟨hne, hoffset, hrun⟩
  · exact absurd (hmax.freeAt (by omega) (by omega)) (heq ▸ hrest)
  · exact .inr (by omega)

/-- The tokens are the maximal stretches that stand behind at least `start` characters, from left to
right. -/
def RunsFrom (delimiters text : Text) (start : Nat) (tokens : List Text) : Prop :=
  ∃ runs : List (Nat × Text), tokens = runs.map Prod.snd ∧
    runs.Pairwise (fun a b => a.1 < b.1) ∧
    ∀ i run, (i, run) ∈ runs ↔ start ≤ i ∧ MaximalAt delimiters text run i

theorem runsFrom_nil (h : text.length ≤ i) : RunsFrom delimiters text i [] := by
  refine ⟨[], rfl, .nil, ?_⟩
  intro j run
  simp only [List.not_mem_nil, false_iff, not_and]
  intro hij hmax
  have := hmax.lt_length
  omega

/-- Where the token ends, it is handed on unless it is empty. -/
theorem Reading.runsFrom {tokens : List Text} (h : Reading delimiters front current)
    (hrest : ¬ FreeAt delimiters (front ++ current ++ rest) (front.length + current.length))
    (hruns : RunsFrom delimiters (front ++ current ++ rest) (front.length + current.length + 1)
      tokens) :
    RunsFrom delimiters (front ++ current ++ rest) front.length
      (if current.isEmpty then tokens else current :: tokens) := by
  obtain ⟨runs, rfl, hsorted, hmem⟩ := hruns
  by_cases hne : current = []
  · refine ⟨runs, by simp [hne], hsorted, ?_⟩
    intro i run
    rw [hmem]
    constructor
    · rintro ⟨hi, hmax⟩
      exact ⟨by omega, hmax⟩
    · rintro ⟨hi, hmax⟩
      rcases h.maximalAt_cases hrest hmax hi with ⟨hcurrent, -⟩ | hlt
      · exact absurd hne hcurrent
      · exact ⟨hlt, hmax⟩
  · refine ⟨(front.length, current) :: runs, by simp [hne], ?_, ?_⟩
    · refine List.pairwise_cons.2 ⟨?_, hsorted⟩
      rintro ⟨i, run⟩ hrun
      have := ((hmem i run).1 hrun).1
      show front.length < i
      omega
    · intro i run
      rw [List.mem_cons, hmem, Prod.mk.injEq]
      constructor
      · rintro (⟨rfl, rfl⟩ | ⟨hi, hmax⟩)
        · exact ⟨Nat.le_refl _, h.maximalAt hne hrest⟩
        · exact ⟨by omega, hmax⟩
      · rintro ⟨hi, hmax⟩
        rcases h.maximalAt_cases hrest hmax hi with ⟨-, hoffset, hrun⟩ | hlt
        · exact .inl ⟨hoffset, hrun⟩
        · exact .inr ⟨hlt, hmax⟩

/-- What the pass still finds, from any of its states on. -/
theorem runsFrom_fieldsFrom (h : Reading delimiters front current) :
    RunsFrom delimiters (front ++ current ++ rest) front.length
      (fieldsFrom (fun c => decide (c ∈ delimiters)) current rest) := by
  -- along the pass: the characters move from `rest` to `current`, and from there to `front`
  induction rest generalizing front current with
  | nil =>
    rw [fieldsFrom]
    exact h.runsFrom (by simp [FreeAt]) (runsFrom_nil (by simp))
  | cons c rest ih =>
    by_cases hc : c ∈ delimiters
    · have hend : ¬ FreeAt delimiters (front ++ current ++ c :: rest)
          (front.length + current.length) := by
        rw [← List.length_append, freeAt_behind]
        exact fun hnot => hnot hc
      have hruns := ih (Reading.delimiter hc (front ++ current))
      rw [List.append_nil, List.append_assoc _ [c], List.singleton_append, List.length_append,
        List.length_append, List.length_singleton] at hruns
      rw [fieldsFrom, if_pos (by simpa using hc)]
      exact h.runsFrom hend hruns
    · have hruns := ih (h.free_character hc)
      rw [fieldsFrom, if_neg (by simpa using hc)]
      simpa using hruns

/-! ## Tokens -/

section

variable {p : Char → Bool} {token : Text} {tokens : List Text}

/-- Characters that are no delimiters are added to the token. -/
theorem fieldsFrom_append (h : ∀ c ∈ token, p c = false) :
    fieldsFrom p current (token ++ rest) = fieldsFrom p (current ++ token) rest := by
  induction token generalizing current with
  | nil => simp
  | cons c token ih =>
    obtain ⟨hc, htoken⟩ := List.forall_mem_cons.1 h
    rw [List.cons_append, fieldsFrom, if_neg (by simp [hc]), ih htoken]
    simp

theorem fields_token (hne : token ≠ []) (h : ∀ c ∈ token, p c = false) :
    fields p token = [token] := by
  have happend : fieldsFrom p [] (token ++ []) = fieldsFrom p ([] ++ token) [] :=
    fieldsFrom_append h
  rw [List.append_nil, List.nil_append] at happend
  rw [fields, happend, fieldsFrom, if_neg (by simpa using hne)]

theorem flatten_fieldsFrom (p : Char → Bool) (current text : Text) :
    (fieldsFrom p current text).flatten = current ++ text.filter (!p ·) := by
  fun_induction fieldsFrom p current text with
  | case1 current hempty => simp [List.isEmpty_iff.1 hempty]
  | case2 current hne => simp
  | case3 current c rest hc hempty ih => simp [ih, hc, List.isEmpty_iff.1 hempty]
  | case4 current c rest hc hne ih => simp [ih, hc]
  | case5 current c rest hc ih => simp [ih, hc]

/-- Tokens with a delimiter between them are told apart again. -/
theorem fields_joinWith (hc : p c = true) (hne : tokens ≠ [])
    (h : ∀ token ∈ tokens, token ≠ [] ∧ ∀ d ∈ token, p d = false) :
    fields p (joinWith [c] tokens) = tokens := by
  induction tokens with
  | nil => exact absurd rfl hne
  | cons token tokens ih =>
    obtain ⟨⟨htoken, hfree⟩, htokens⟩ := List.forall_mem_cons.1 h
    by_cases hlast : tokens = []
    · rw [hlast, joinWith_singleton, fields_token htoken hfree]
    · rw [joinWith_cons _ _ hlast, List.append_assoc, fields, fieldsFrom_append hfree,
        List.singleton_append, fieldsFrom, if_pos hc, if_neg (by simpa using htoken)]
      exact congrArg (token :: ·) (ih hlast htokens)

theorem joinWith_nil (tokens : List Text) : joinWith [] tokens = tokens.flatten := by
  cases tokens with
  | nil => rfl
  | cons token tokens =>
    induction tokens generalizing token with
    | nil => simp [joinWith_singleton]
    | cons next tokens ih => rw [joinWith_cons _ _ (List.cons_ne_nil _ _), ih]; simp

end

end Text

/-! ## The functions of the library -/

namespace Library

open Text

theorem itemTexts_strings (texts : List Text) : itemTexts (texts.map .string) = .ok texts := by
  induction texts with
  | nil => rfl
  | cons text texts ih =>
    rw [List.map_cons, itemTexts, ih]
    rfl

theorem join_strings (texts : List Text) (separator : Text) :
    join (.list (texts.map .string)) (.string separator) =
      .ok (.string (joinWith separator texts)) := by
  simp only [join, Value.items?, itemTexts_strings, Value.toText_string]
  rfl

theorem split_strings {s : Text} (hs : s ≠ []) (d : Text) : split (.string s) (.string d) =
    .ok (.list ((fields (fun c => decide (c ∈ d)) s).map .string)) := by
  simp only [split, Value.toText_string, bind, Except.bind, if_neg hs]
  split
  · rename_i hd
    rw [hd, fields_token hs (by simp)]
    rfl
  · rfl

/-- What the tokens have to do with the text `s` that is split at the characters of `d`. -/
structure SplitsInto (s d : Text) (tokens : List Text) : Prop where
  split_eq : split (.string s) (.string d) = .ok (.list (tokens.map .string))
  /-- The tokens are the longest stretches without delimiters, with what stands where, in order. -/
  maximal : ∃ runs : List (Nat × Text), tokens = runs.map Prod.snd ∧
    runs.Pairwise (fun a b => a.1 < b.1) ∧ ∀ i run, (i, run) ∈ runs ↔ MaximalAt d s run i
  ne_nil : ∀ token ∈ tokens, token ≠ []
  free : ∀ token ∈ tokens, ∀ c ∈ token, c ∉ d
  /-- Nothing but the delimiters is lost. -/
  join_eq : join (.list (tokens.map .string)) (.string []) =
    .ok (.string (s.filter fun c => decide (c ∉ d)))
  split_token : ∀ token ∈ tokens,
    split (.string token) (.string d) = .ok (.list [.string token])

theorem splitsInto {s : Text} (hs : s ≠ []) (d : Text) :
    SplitsInto s d (fields (fun c => decide (c ∈ d)) s) := by
  obtain ⟨runs, hruns, hsorted, hmem⟩ : RunsFrom d s 0 (fields (fun c => decide (c ∈ d)) s) :=
    runsFrom_fieldsFrom Reading.start
  have hstretch : ∀ token ∈ fields (fun c => decide (c ∈ d)) s,
      token ≠ [] ∧ ∀ c ∈ token, c ∉ d := by
    intro token htoken
    rw [hruns] at htoken
    obtain ⟨⟨i, run⟩, hrun, rfl⟩ := List.mem_map.1 htoken
    have hmax := ((hmem i run).1 hrun).2
    exact ⟨hmax.ne_nil, hmax.free⟩
  constructor
  case split_eq => exact split_strings hs d
  case maximal =>
    refine ⟨runs, hruns, hsorted, ?_⟩
    intro i run
    rw [hmem]
    simp
  case ne_nil => exact fun token htoken => (hstretch token htoken).1
  case free => exact fun token htoken => (hstretch token htoken).2
  case join_eq =>
    rw [join_strings, joinWith_nil, fields, flatten_fieldsFrom]
    simp
  case split_token =>
    intro token htoken
    obtain ⟨hne, hfree⟩ := hstretch token htoken
    rw [split_strings hne, fields_token hne (by simpa using hfree)]
    rfl

/-- **A text is split into its longest stretches without delimiters.**  For a text that is not empty
the tokens are these stretches in their order: none is empty, none has a delimiter, together they
are the text without its delimiters, and none can be split again.  In return, texts without a
character that are joined with it come out again when the result is split at it. -/
theorem split_tokens :
    (∀ s d : Text, s ≠ [] → ∃ tokens, SplitsInto s d tokens) ∧
    ∀ (tokens : List Text) (c : Char), tokens ≠ [] → (∀ token ∈ tokens, token ≠ [] ∧ c ∉ token) →
      ∃ s, join (.list (tokens.map .string)) (.string [c]) = .ok (.string s) ∧
        split (.string s) (.string [c]) = .ok (.list (tokens.map .string)) := by
  refine ⟨fun s d hs => ⟨_, splitsInto hs d⟩, ?_⟩
  intro tokens c hne htokens
  have hfields : fields (fun x => decide (x ∈ [c])) (joinWith [c] tokens) = tokens := by
    refine fields_joinWith (by simp) hne ?_
    intro token htoken
    obtain ⟨htext, hfree⟩ := htokens token htoken
    refine ⟨htext, ?_⟩
    intro x hx
    have : x ≠ c := fun heq => hfree (heq ▸ hx)
    simp [this]
  have hs : joinWith [c] tokens ≠ [] := by
    intro hempty
    rw [hempty] at hfields
    exact hne hfields.symm
  exact ⟨_, join_strings tokens [c], by rw [split_strings hs, hfields]⟩

/-- Delimiters at both ends and side by side; two texts that are joined and split again. -/
theorem split_tokens_delimiters :
    let s := ",a;;bc,".toList
    let tokens := ["a".toList, "bc".toList]
    s ≠ [] ∧ (∃ tokens, SplitsInto s ",;".toList tokens) ∧
      split (.string s) (.string ",;".toList) = .ok (.list (tokens.map .string)) ∧
      tokens ≠ [] ∧ (∀ token ∈ tokens, token ≠ [] ∧ '-' ∉ token) ∧
      (∃ s, join (.list (tokens.map .string)) (.string ['-']) = .ok (.string s) ∧
        split (.string s) (.string ['-']) = .ok (.list (tokens.map .string))) ∧
      join (.list (tokens.map .string)) (.string ['-']) = .ok (.string "a-bc".toList) := by
  intro s tokens
  have hs : s ≠ [] := by decide
  have hne : tokens ≠ [] := by decide
  have htokens : ∀ token ∈ tokens, token ≠ [] ∧ '-' ∉ token := by decide
  exact ⟨hs, split_tokens.1 s _ hs, rfl, hne, htokens, split_tokens.2 tokens '-' hne htokens, rfl⟩

end Library

end ExprLang
