import ExprLang.Proofs.LexemeReading

/-!
# The lexer accepts exactly the lexical grammar

The reading of one lexeme, put together for a whole source.

* `Lexer.Step` — what one call does, with `step_next`.
* `Lexer.all_written` — the tokens of a source, from any of its splits.
* `Lexer.split_of_all` — a source that is read to its end has a split.
* `Split.unique` — a source has one split at most.
* `toList_ofSource_accepts_exactly_grammar` — the three together, for every source.
-/

namespace ExprLang

namespace Lexer

variable {loc : Location} {gap last source : Text} {lexeme : Lexeme}

/-! ## One token -/

theorem skipBlanks_append (loc : Location) (hgap : Blank gap)
    (hrest : Stops Unicode.isBlank source) :
    skipBlanks ⟨gap ++ source, loc⟩ = ⟨source, loc.after gap⟩ := by
  simp only [skipBlanks, advance, hrest.takeWhile_append hgap, List.drop_left, List.take_left]

/-- A lexeme behind blanks is the next token. -/
theorem next_lexeme (hgap : Blank gap) (h : lexeme.Stands source) :
    next ⟨gap ++ lexeme.text ++ source, loc⟩ =
      (.ok ⟨lexeme.content, loc.after gap, lexeme.text⟩,
        ⟨source, (loc.after gap).after lexeme.text⟩) := by
  obtain ⟨c, tail, htext, hc⟩ := h.not_blank
  have hfront : lexeme.text ++ source = c :: (tail ++ source) := by
    rw [htext, List.cons_append]
  have hskip : skipBlanks ⟨gap ++ lexeme.text ++ source, loc⟩ =
      ⟨c :: (tail ++ source), loc.after gap⟩ := by
    rw [List.append_assoc, hfront]
    exact skipBlanks_append loc hgap (stops_cons.2 hc)
  rw [next, hskip]
  simp only [readToken, Lexeme.read_of_stands h hfront.symm, advance]
  rw [← hfront, List.drop_left, List.take_left]

/-- Blanks alone are followed by the end token. -/
theorem next_blank (hlast : Blank last) :
    next ⟨last, loc⟩ = (.ok (.eof (loc.after last)), ⟨[], loc.after last⟩) := by
  have hskip := skipBlanks_append loc hlast stops_nil
  rw [List.append_nil] at hskip
  rw [next, hskip]
  rfl

/-- What cannot be read keeps the lexer in front of it. -/
theorem next_fault {c : Char} {fault : LexicalFault} (hgap : Blank gap)
    (hc : Unicode.isBlank c = false) (h : Lexeme.read c source = .error fault) :
    next ⟨gap ++ c :: source, loc⟩ =
      (.error ⟨fault.reason, (loc.after gap).after ((c :: source).take fault.offset)⟩,
        ⟨c :: source, loc.after gap⟩) := by
  rw [next, skipBlanks_append loc hgap (stops_cons.2 hc)]
  simp only [readToken, h]

/-- One call of a lexer finds the end of the source, a lexeme or a fault behind some blanks. -/
inductive Step : Lexer → Except LexicalError Token → Lexer → Prop where
  | ends {loc : Location} {gap : Text} : Blank gap →
    Step ⟨gap, loc⟩ (.ok (.eof (loc.after gap))) ⟨[], loc.after gap⟩
  | reads {loc : Location} {gap rest : Text} {lexeme : Lexeme} : Blank gap → lexeme.Stands rest →
    Step ⟨gap ++ lexeme.text ++ rest, loc⟩
      (.ok ⟨lexeme.content, loc.after gap, lexeme.text⟩)
      ⟨rest, (loc.after gap).after lexeme.text⟩
  | fails {loc : Location} {gap rest : Text} {c : Char} {fault : LexicalFault} : Blank gap →
    Unicode.isBlank c = false → Lexeme.read c rest = .error fault →
    Step ⟨gap ++ c :: rest, loc⟩
      (.error ⟨fault.reason, (loc.after gap).after ((c :: rest).take fault.offset)⟩)
      ⟨c :: rest, loc.after gap⟩

/-- Every call is such a step. -/
theorem step_next (lexer : Lexer) : Step lexer lexer.next.1 lexer.next.2 := by
  obtain ⟨source, loc⟩ := lexer
  have hgap : Blank (source.takeWhile Unicode.isBlank) := List.all_eq_true.1 List.all_takeWhile
  have hstops := stops_dropWhile Unicode.isBlank source
  have hsplit : source.takeWhile Unicode.isBlank ++ source.dropWhile Unicode.isBlank = source :=
    List.takeWhile_append_dropWhile
  generalize source.takeWhile Unicode.isBlank = gap at *
  generalize source.dropWhile Unicode.isBlank = front at *
  subst hsplit
  cases front with
  | nil =>
    rw [List.append_nil, next_blank hgap]
    exact .ends hgap
  | cons c tail =>
    have hc : Unicode.isBlank c = false := stops_cons.1 hstops
    cases hread : Lexeme.read c tail with
    | ok lexeme =>
      obtain ⟨rest, htext, hstands⟩ := Lexeme.stands_of_read hread
      rw [htext, ← List.append_assoc, next_lexeme hgap hstands]
      exact .reads hgap hstands
    | error fault =>
      rw [next_fault hgap hc hread]
      exact .fails hgap hc hread

theorem step_of_next {lexer lexer' : Lexer} {answer : Except LexicalError Token}
    (h : lexer.next = (answer, lexer')) : Step lexer answer lexer' := by
  have hstep := step_next lexer
  rwa [h] at hstep

/-- What the next token was read from. -/
theorem written_of_next {lexer lexer' : Lexer} {token : Token}
    (h : lexer.next = (.ok token, lexer')) :
    (token.type = .eof ∧ Blank lexer.rest) ∨
      (token.type ≠ .eof ∧ ∃ gap lexeme, Blank gap ∧ Lexeme.Stands lexeme lexer'.rest ∧
        lexer.rest = gap ++ lexeme.text ++ lexer'.rest) := by
  cases step_of_next h with
  | ends hgap => exact .inl ⟨rfl, hgap⟩
  | reads hgap hlexeme => exact .inr ⟨hlexeme.type_ne_eof, _, _, hgap, hlexeme, rfl⟩

/-! ## All tokens -/

section

variable {lexer lexer' : Lexer} {token : Token}

theorem all_of_next_ok (h : lexer.next = (.ok token, lexer')) :
    lexer.all = if token.type = .eof then ⟨[], .ok token⟩
      else ⟨token :: lexer'.all.tokens, lexer'.all.ending⟩ := by
  rw [all]
  split
  · rename_i h'
    rw [h] at h'
    cases h'
  · rename_i h'
    rw [h] at h'
    cases h'
    split <;> rfl

theorem all_of_next_error {error : LexicalError} (h : lexer.next = (.error error, lexer')) :
    lexer.all = ⟨[], .error error⟩ := by
  rw [all]
  split
  · rename_i h'
    rw [h] at h'
    cases h'
    rfl
  · rename_i h'
    rw [h] at h'
    cases h'

end

/-- The tokens of a source are those of its pieces. -/
theorem all_written {pieces : List Piece} (h : WellPlaced pieces last) (hlast : Blank last) :
    all ⟨written pieces last, loc⟩ =
      ⟨tokensFrom loc pieces, .ok (.eof (loc.after (written pieces last)))⟩ := by
  induction pieces generalizing loc with
  | nil => exact (all_of_next_ok (next_blank hlast)).trans (if_pos rfl)
  | cons piece pieces ih =>
    obtain ⟨gap, content, text⟩ := piece
    obtain ⟨hgap, hlexeme, hpieces⟩ := h
    have hne : Token.type ⟨content, loc.after gap, text⟩ ≠ .eof := hlexeme.type_ne_eof
    simp only [written, tokensFrom, all_of_next_ok (next_lexeme hgap hlexeme), if_neg hne,
      ih hpieces, Location.after_append]

/-- What is read up to its end is cut into lexemes. -/
theorem split_of_all {lexer : Lexer} {ending : Token} (h : lexer.all.ending = .ok ending) :
    ∃ pieces last, Split lexer.rest pieces last := by
  fun_induction all lexer with
  | case1 => cases h
  | case2 lexer token lexer' hnext htype =>
    rcases written_of_next hnext with ⟨-, hblank⟩ | ⟨hne, -⟩
    · exact ⟨[], lexer.rest, rfl, trivial, hblank⟩
    · exact absurd htype hne
  | case3 lexer token lexer' hnext htype stream ih =>
    rcases written_of_next hnext with ⟨hend, -⟩ | ⟨-, gap, lexeme, hgap, hlexeme, hrest⟩
    · exact absurd hend htype
    · obtain ⟨pieces, last, hsource, hpieces, hlast⟩ := ih h
      rw [hsource] at hlexeme hrest
      exact ⟨⟨gap, lexeme⟩ :: pieces, last, hrest, ⟨hgap, hlexeme, hpieces⟩, hlast⟩

end Lexer

namespace Split

variable {source last last' : Text} {piece piece' : Piece} {pieces pieces' : List Piece}

/-- What a lexer finds at the front of a source that starts with a piece. -/
theorem next_cons (h : Split source (piece :: pieces) last) :
    Lexer.next ⟨source, .origin⟩ =
      (.ok ⟨piece.lexeme.content, Location.origin.after piece.gap, piece.lexeme.text⟩,
        ⟨written pieces last, (Location.origin.after piece.gap).after piece.lexeme.text⟩) := by
  obtain ⟨rfl, ⟨hgap, hlexeme, -⟩, -⟩ := h
  exact Lexer.next_lexeme hgap hlexeme

theorem tail (h : Split source (piece :: pieces) last) :
    Split (written pieces last) pieces last :=
  ⟨rfl, h.wellPlaced.2.2, h.blank⟩

theorem not_blank_cons (h : Split source [] last) : ¬ Split source (piece :: pieces) last' := by
  intro h'
  have hnext := h'.next_cons
  rw [Lexer.next_blank (h.source_eq ▸ h.blank)] at hnext
  injection hnext with htoken
  injection htoken with htoken
  exact h'.wellPlaced.2.1.type_ne_eof (congrArg Token.type htoken).symm

/-- Two splits of a source start with the same piece and have the same text behind it. -/
theorem cons_unique (h : Split source (piece :: pieces) last)
    (h' : Split source (piece' :: pieces') last') :
    piece = piece' ∧ written pieces last = written pieces' last' := by
  have hsource := h.source_eq.symm.trans h'.source_eq
  have hnext := h.next_cons.symm.trans h'.next_cons
  obtain ⟨gap, content, text⟩ := piece
  obtain ⟨gap', content', text'⟩ := piece'
  simp only [Prod.mk.injEq, Except.ok.injEq, Token.mk.injEq, Lexer.mk.injEq] at hnext
  obtain ⟨⟨rfl, -, rfl⟩, hrest, -⟩ := hnext
  rw [written, written, hrest, List.append_assoc, List.append_assoc] at hsource
  have hgap : gap = gap' := List.append_cancel_right hsource
  exact ⟨by rw [hgap], hrest⟩

/-- **The lexical grammar is unambiguous**: a source is cut in one way only. -/
theorem unique (h : Split source pieces last) (h' : Split source pieces' last') :
    pieces = pieces' ∧ last = last' := by
  induction pieces generalizing source pieces' with
  | nil =>
    cases pieces' with
    | nil => exact ⟨rfl, h.source_eq.symm.trans h'.source_eq⟩
    | cons piece' pieces' => exact absurd h' h.not_blank_cons
  | cons piece pieces ih =>
    cases pieces' with
    | nil => exact absurd h h'.not_blank_cons
    | cons piece' pieces' =>
      obtain ⟨rfl, hrest⟩ := h.cons_unique h'
      obtain ⟨rfl, rfl⟩ := ih h.tail (hrest ▸ h'.tail)
      exact ⟨rfl, rfl⟩

end Split

/-- **The lexer accepts exactly the lexical grammar.**  The tokens of a source are read if and only
if the source is a sequence of lexemes with blanks around them, and they are the tokens of these
lexemes, each at the place where it stands, and the end token behind the last blank.  A source is
such a sequence in one way only. -/
theorem toList_ofSource_accepts_exactly_grammar (source : Text) :
    (∀ tokens, (TokenStream.ofSource source).toList = .ok tokens ↔
      ∃ pieces last, Split source pieces last ∧
        tokens = tokensFrom .origin pieces ++ [.eof (Location.origin.after source)]) ∧
    (∀ pieces last pieces' last', Split source pieces last → Split source pieces' last' →
      pieces = pieces' ∧ last = last') := by
  have hread : ∀ pieces last, Split source pieces last → (TokenStream.ofSource source).toList =
      .ok (tokensFrom .origin pieces ++ [.eof (Location.origin.after source)]) := by
    rintro pieces last ⟨rfl, hpieces, hlast⟩
    rw [TokenStream.ofSource, Lexer.start, Lexer.all_written hpieces hlast]
    rfl
  refine ⟨fun tokens => ⟨fun h => ?_, ?_⟩, fun _ _ _ _ h h' => h.unique h'⟩
  · have hending : ∃ ending, (Lexer.start source).all.ending = .ok ending := by
      unfold TokenStream.toList TokenStream.ofSource at h
      split at h
      · exact ⟨_, by assumption⟩
      · cases h
    obtain ⟨ending, hending⟩ := hending
    obtain ⟨pieces, last, hsplit⟩ := Lexer.split_of_all hending
    refine ⟨pieces, last, hsplit, ?_⟩
    rw [hread pieces last hsplit] at h
    cases h
    rfl
  · rintro ⟨pieces, last, hsplit, rfl⟩
    exact hread pieces last hsplit

end ExprLang
