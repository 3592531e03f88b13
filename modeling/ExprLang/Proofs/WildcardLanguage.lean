import ExprLang.Host.Variables
import ExprLang.Proofs.EvaluationRules
import Mathlib.Data.List.Forall2

/-!
# The language of wildcard patterns

A pattern is read from left to right as a list of items, unless its reading ends in a backslash with
nothing behind it.  A text matches if it is cut into pieces that the items cover in order, however
the runs have to be cut for that.  All characters are alike to a run and to a single item, the ends
of lines too.

* `Wildcard.Reads` — a pattern as items, with `ofText?_eq_some_iff` and `ofText?_eq_none_iff`.
* `Wildcard.Covers` — the pieces of text that an item stands for, with `matchesItems_iff`.
* `wildcard_matches_language` — what the operator tells of two texts.
-/

namespace ExprLang

open Evaluation

namespace Wildcard

/-- The pattern as items. -/
inductive Reads : Text → List Wildcard → Prop where
  | nil : Reads [] []
  | run {rest : Text} {items : List Wildcard} :
    Reads rest items → Reads ('*' :: rest) (.run :: items)
  | single {rest : Text} {items : List Wildcard} :
    Reads rest items → Reads ('?' :: rest) (.single :: items)
  | escaped {c : Char} {rest : Text} {items : List Wildcard} :
    Reads rest items → Reads ('\\' :: c :: rest) (.char c :: items)
  | plain {c : Char} {rest : Text} {items : List Wildcard} : c ≠ '*' → c ≠ '?' → c ≠ '\\' →
    Reads rest items → Reads (c :: rest) (.char c :: items)

/-- The reading of the pattern ends in a backslash with nothing behind it. -/
def EndsInEscape (pattern : Text) : Prop :=
  ∃ front items, Reads front items ∧ pattern = front ++ ['\\']

/-- The item stands for the piece of text. -/
inductive Covers : Wildcard → Text → Prop where
  | run (piece : Text) : Covers .run piece
  | single (c : Char) : Covers .single [c]
  | char (c : Char) : Covers (.char c) [c]

/-- The text is cut into pieces that the items stand for, in order. -/
def CoverAll (items : List Wildcard) (text : Text) : Prop :=
  ∃ pieces, List.Forall₂ Covers items pieces ∧ text = pieces.flatten

section

variable {pattern text : Text} {item : Wildcard} {items : List Wildcard}

/-! ## Reading a pattern -/

/-- Only a backslash is an escape, be it with or without a character behind it. -/
theorem ne_escape {c : Char} {rest : Text} (hlast : c = '\\' → rest = [] → False)
    (hescape : ∀ d rest', c = '\\' → rest = d :: rest' → False) : c ≠ '\\' := by
  intro hc
  cases rest with
  | nil => exact hlast hc rfl
  | cons d rest => exact hescape d rest hc rfl

theorem reads_of_ofText? (h : ofText? pattern = some items) : Reads pattern items := by
  fun_induction ofText? pattern generalizing items with
  | case1 =>
    cases h
    exact .nil
  | case2 => cases h
  | case3 c rest ih =>
    obtain ⟨items, hrest, rfl⟩ := Option.map_eq_some_iff.1 h
    exact .escaped (ih hrest)
  | case4 rest ih =>
    obtain ⟨items, hrest, rfl⟩ := Option.map_eq_some_iff.1 h
    exact .run (ih hrest)
  | case5 rest ih =>
    obtain ⟨items, hrest, rfl⟩ := Option.map_eq_some_iff.1 h
    exact .single (ih hrest)
  | case6 c rest hlast hescape hrun hsingle ih =>
    obtain ⟨items, hrest, rfl⟩ := Option.map_eq_some_iff.1 h
    exact .plain hrun hsingle (ne_escape hlast hescape) (ih hrest)

theorem ofText?_of_reads (h : Reads pattern items) : ofText? pattern = some items := by
  induction h with
  | nil => rfl
  | run _ ih | single _ ih | escaped _ ih => simp [ofText?, ih]
  | plain hrun hsingle hescape _ ih => simp [ofText?, hescape, ih]

theorem ofText?_eq_some_iff : ofText? pattern = some items ↔ Reads pattern items :=
  ⟨reads_of_ofText?, ofText?_of_reads⟩

/-- A pattern has no items if and only if its reading ends in a backslash. -/
theorem ofText?_eq_none_iff : ofText? pattern = none ↔ EndsInEscape pattern := by
  constructor
  · intro h
    fun_induction ofText? pattern with
    | case1 => cases h
    | case2 => exact ⟨[], [], .nil, rfl⟩
    | case3 c rest ih =>
      obtain ⟨front, items, hreads, rfl⟩ := ih (Option.map_eq_none_iff.1 h)
      exact ⟨_, _, .escaped hreads, rfl⟩
    | case4 rest ih =>
      obtain ⟨front, items, hreads, rfl⟩ := ih (Option.map_eq_none_iff.1 h)
      exact ⟨_, _, .run hreads, rfl⟩
    | case5 rest ih =>
      obtain ⟨front, items, hreads, rfl⟩ := ih (Option.map_eq_none_iff.1 h)
      exact ⟨_, _, .single hreads, rfl⟩
    | case6 c rest hlast hescape hrun hsingle ih =>
      have hc := ne_escape hlast hescape
      obtain ⟨front, items, hreads, rfl⟩ := ih (Option.map_eq_none_iff.1 h)
      exact ⟨_, _, .plain hrun hsingle hc hreads, rfl⟩
  · rintro ⟨front, items, hreads, rfl⟩
    induction hreads with
    | nil => rfl
    | run _ ih | single _ ih | escaped _ ih => simp [ofText?, ih]
    | plain hrun hsingle hescape _ ih => simp [ofText?, hescape, ih]

/-! ## Matching -/

theorem anySuffix_eq_true_iff {p : Text → Bool} :
    anySuffix p text = true ↔ ∃ piece rest, text = piece ++ rest ∧ p rest = true := by
  induction text with
  | nil => simp [anySuffix]
  | cons c text ih =>
    rw [anySuffix, Bool.or_eq_true, ih]
    constructor
    · rintro (h | ⟨piece, rest, rfl, h⟩)
      · exact ⟨[], _, rfl, h⟩
      · exact ⟨c :: piece, rest, rfl, h⟩
    · rintro ⟨piece, rest, heq, h⟩
      cases piece with
      | nil =>
        subst heq
        exact .inl h
      | cons d piece =>
        cases heq
        exact .inr ⟨piece, rest, rfl, h⟩

theorem coverAll_nil_iff : CoverAll [] text ↔ text = [] := by
  constructor
  · rintro ⟨pieces, hpieces, rfl⟩
    cases hpieces
    rfl
  · rintro rfl
    exact ⟨[], .nil, rfl⟩

theorem coverAll_cons_iff : CoverAll (item :: items) text ↔
    ∃ piece rest, text = piece ++ rest ∧ Covers item piece ∧ CoverAll items rest := by
  constructor
  · rintro ⟨pieces, hpieces, rfl⟩
    cases hpieces with
    | @cons _ piece _ pieces hitem hitems => exact ⟨piece, _, rfl, hitem, pieces, hitems, rfl⟩
  · rintro ⟨piece, _, rfl, hitem, pieces, hitems, rfl⟩
    exact ⟨piece :: pieces, .cons hitem hitems, rfl⟩

theorem matchesItems_iff : matchesItems items text = true ↔ CoverAll items text := by
  induction items generalizing text with
  | nil => rw [matchesItems, List.isEmpty_iff, coverAll_nil_iff]
  | cons item items ih =>
    rw [coverAll_cons_iff]
    cases item with
    | run =>
      rw [matchesItems, anySuffix_eq_true_iff]
      constructor
      · rintro ⟨piece, rest, rfl, h⟩
        exact ⟨piece, rest, rfl, .run piece, ih.1 h⟩
      · rintro ⟨piece, rest, rfl, -, h⟩
        exact ⟨piece, rest, rfl, ih.2 h⟩
    | single =>
      constructor
      · intro h
        cases text with
        | nil => cases h
        | cons c rest => exact ⟨[c], rest, rfl, .single c, ih.1 h⟩
      · rintro ⟨_, rest, rfl, ⟨⟩, h⟩
        exact ih.2 h
    | char c =>
      constructor
      · intro h
        cases text with
        | nil => cases h
        | cons d rest =>
          obtain ⟨hc, hrest⟩ := Bool.and_eq_true_iff.1 h
          obtain rfl := of_decide_eq_true hc
          exact ⟨[c], rest, rfl, .char c, ih.1 hrest⟩
      · rintro ⟨_, rest, rfl, ⟨⟩, h⟩
        exact Bool.and_eq_true_iff.2 ⟨decide_eq_true rfl, ih.2 h⟩

theorem matchesText_eq_true_iff : matchesText pattern text = true ↔
    ∃ items, Reads pattern items ∧ CoverAll items text := by
  unfold matchesText
  split
  · rename_i hnone
    refine iff_of_false Bool.false_ne_true ?_
    rintro ⟨items, hreads, -⟩
    cases hnone.symm.trans (ofText?_eq_some_iff.2 hreads)
  · rename_i items hsome
    rw [matchesItems_iff]
    constructor
    · exact fun h => ⟨items, ofText?_eq_some_iff.1 hsome, h⟩
    · rintro ⟨items', hreads, h⟩
      cases hsome.symm.trans (ofText?_eq_some_iff.2 hreads)
      exact h

theorem matchesText_of_endsInEscape (h : EndsInEscape pattern) :
    matchesText pattern text = false := by
  rw [matchesText, ofText?_eq_none_iff.2 h]

end

end Wildcard

section

variable {host : Host} {left right : Expr} {text pattern : Text} {t t₁ t₂ : Trace}

/-- **The language of wildcard patterns.**  On two texts, whatever characters they hold, the
operator comes to a boolean without asking the host for anything.  It is true if and only if the
pattern can be read as items, where `*` is any run of characters, `?` a single one, a backslash the
character behind it and every other character itself, and the text is cut into pieces that these
items stand for in order.  It is false of a pattern whose reading ends in a backslash. -/
theorem wildcard_matches_language (hleft : (evaluate host left).Returns t (.string text) t₁)
    (hright : (evaluate host right).Returns t₁ (.string pattern) t₂) :
    ∃ found, (evaluate host (.binary .wildcard left right)).Returns t (.boolean found) t₂ ∧
      (found = true ↔ ∃ items, Wildcard.Reads pattern items ∧ Wildcard.CoverAll items text) ∧
      (Wildcard.EndsInEscape pattern → found = false) := by
  refine ⟨Wildcard.matchesText pattern text, ?_, Wildcard.matchesText_eq_true_iff,
    Wildcard.matchesText_of_endsInEscape⟩
  rw [evaluate_binary]
  exact returns_bind.2 ⟨_, t₁, hleft, returns_bind.2 ⟨_, t₂, hright, rfl⟩⟩

/-- A run that covers the end of a line and a star that follows it, and an escaped star. -/
theorem wildcard_matches_language_lines :
    let host := Host.ofVariables [] .empty
    let text : Text := ['a', '*', '\n', '*', 'b', '*', 'c']
    let pattern : Text := ['?', '*', '\\', '*', 'c']
    let e (text : Text) := Expr.literal (.string text)
    (evaluate host (e text)).Returns [] (.string text) [] ∧
      (evaluate host (e pattern)).Returns [] (.string pattern) [] ∧
      ∃ found, (evaluate host (.binary .wildcard (e text) (e pattern))).Returns [] (.boolean found)
          [] ∧
        (found = true ↔ ∃ items, Wildcard.Reads pattern items ∧ Wildcard.CoverAll items text) ∧
        (Wildcard.EndsInEscape pattern → found = false) := by
  intro host text pattern e
  have hliteral : ∀ text, (evaluate host (e text)).Returns [] (.string text) [] := by
    intro text
    rw [evaluate_literal]
    exact returns_pure.2 ⟨rfl, rfl⟩
  exact ⟨hliteral text, hliteral pattern,
    wildcard_matches_language (hliteral text) (hliteral pattern)⟩

end

end ExprLang
