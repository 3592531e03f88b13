import ExprLang.Proofs.Respelling

/-!
# Reading lexemes again

The lexemes of a source are read again as the tokens that they came from, whatever blanks part
them.  A colon shows why this is no matter of course: `f:g(` is one name in front of its
parenthesis and `f :g(` is three tokens, so the blanks between the lexemes must neither part what
was one lexeme nor join what was several.

* `Spacing`, `respaced` — the blanks to put between tokens, and the text that they make.
* `respells_tokensFrom` — every lexeme of a source spells its own token.
* `toList_respaced` — the text is read as the same tokens, up to where they stand.
-/

namespace ExprLang

/-- What a token is, wherever it stands. -/
def Token.unplaced (token : Token) : Lexeme :=
  ⟨token.content, token.lexeme⟩

/-- The lexemes of tokens, each behind its gap. -/
def respaced (gaps : List Text) (tokens : List Token) : Text :=
  (gaps.zipWith (fun gap token => gap ++ token.lexeme) tokens).flatten

/-- Blank gaps, one in front of each token.  Only the outermost two may be empty: the one in front
of all tokens, and the one in front of the end token, which has no text. -/
structure Spacing (gaps : List Text) (tokens : List Token) : Prop where
  length_eq : gaps.length = tokens.length
  blank : ∀ gap ∈ gaps, Blank gap
  apart : ∀ gap ∈ gaps.tail.dropLast, gap ≠ []

/-- The lexemes of pieces behind other gaps. -/
def regapped (gaps : List Text) (pieces : List Piece) : List Piece :=
  gaps.zipWith (fun gap piece => ⟨gap, piece.lexeme⟩) pieces

section

variable {source last : Text} {gaps : List Text} {pieces : List Piece} {tokens : List Token}
  {ending : Token}

theorem Split.toList_eq (h : Split source pieces last) : (TokenStream.ofSource source).toList =
    .ok (tokensFrom .origin pieces ++ [.eof (Location.origin.after source)]) := by
  rw [h.ofSource_eq]
  rfl

/-- What is read to its end is a split source, and its tokens are those of the pieces. -/
theorem split_of_toList (h : (TokenStream.ofSource source).toList = .ok tokens) :
    ∃ pieces last, Split source pieces last ∧
      tokens = tokensFrom .origin pieces ++ [.eof (Location.origin.after source)] := by
  have hending : ∃ ending, (Lexer.start source).all.ending = .ok ending := by
    unfold TokenStream.toList TokenStream.ofSource at h
    split at h
    · exact ⟨_, by assumption⟩
    · cases h
  obtain ⟨ending, hending⟩ := hending
  obtain ⟨pieces, last, hsplit⟩ := Lexer.split_of_all hending
  exact ⟨pieces, last, hsplit, Except.ok.inj (h.symm.trans hsplit.toList_eq)⟩

/-! ## The same lexemes -/

theorem map_unplaced_tokensFrom (loc : Location) (pieces : List Piece) :
    (tokensFrom loc pieces).map Token.unplaced = pieces.map Piece.lexeme := by
  induction pieces generalizing loc with
  | nil => rfl
  | cons piece pieces ih => exact congrArg _ (ih _)

theorem map_lexeme_regapped (h : gaps.length = pieces.length) :
    (regapped gaps pieces).map Piece.lexeme = pieces.map Piece.lexeme := by
  induction gaps generalizing pieces with
  | nil =>
    cases pieces with
    | nil => rfl
    | cons => cases h
  | cons gap gaps ih =>
    cases pieces with
    | nil => cases h
    | cons piece pieces => exact congrArg (piece.lexeme :: ·) (ih (Nat.succ.inj h))

theorem respaced_eq_written (h : gaps.length = pieces.length) (loc : Location)
    (hending : ending.lexeme = []) :
    respaced (gaps ++ [last]) (tokensFrom loc pieces ++ [ending]) =
      written (regapped gaps pieces) last := by
  induction gaps generalizing pieces loc with
  | nil =>
    cases pieces with
    | nil => simp [respaced, tokensFrom, regapped, written, hending]
    | cons => cases h
  | cons gap gaps ih =>
    cases pieces with
    | nil => cases h
    | cons piece pieces => exact congrArg _ (ih (Nat.succ.inj h) _)

/-- Every lexeme of a source spells its own token. -/
theorem respells_tokensFrom (h : WellPlaced pieces last) (loc : Location) :
    List.Forall₂ Respells (tokensFrom loc pieces) (pieces.map Piece.lexeme) := by
  induction pieces generalizing loc with
  | nil => exact .nil
  | cons piece pieces ih =>
    obtain ⟨gap, content, text⟩ := piece
    obtain ⟨-, hlexeme, hpieces⟩ := h
    obtain ⟨c, tail, htext, -⟩ := hlexeme.not_blank
    have hread := Lexeme.read_of_stands hlexeme (congrArg (· ++ written pieces last) htext.symm)
    exact .cons ⟨⟨c, _, hread⟩, rfl, fun _ => rfl⟩ (ih hpieces _)

/-! ## Other gaps -/

theorem mem_regapped {piece : Piece} (h : piece ∈ regapped gaps pieces) : piece.gap ∈ gaps := by
  obtain ⟨i, hi, rfl⟩ := List.mem_iff_getElem.1 h
  simp [regapped]

theorem Spacing.spaced (h : Spacing (gaps ++ [last]) tokens) :
    Spaced (regapped gaps pieces) last := by
  have htail : (gaps ++ [last]).tail.dropLast = gaps.tail := by
    cases gaps with
    | nil => rfl
    | cons => simp
  refine ⟨fun piece hpiece => h.blank _ ?_, fun piece hpiece => h.apart _ ?_, h.blank _ ?_⟩
  · exact List.mem_append_left _ (mem_regapped hpiece)
  · rw [regapped, List.tail_zipWith] at hpiece
    exact htail ▸ mem_regapped hpiece
  · exact List.mem_append_right _ List.mem_cons_self

/-- The lexemes of a source with other blanks between them are a source of the same lexemes. -/
theorem Split.of_spaced (h : Split source pieces last) {last' : Text}
    (hlength : gaps.length = pieces.length)
    (hspaced : Spaced (regapped gaps pieces) last') :
    Split (written (regapped gaps pieces) last') (regapped gaps pieces) last' := by
  have hspelled := respells_tokensFrom h.wellPlaced .origin
  rw [← map_lexeme_regapped hlength] at hspelled
  exact ⟨rfl, wellPlaced_of_spaced h.wellPlaced h.blank hspelled hspaced, hspaced.blank_last⟩

theorem toList_of_spacing (h : (TokenStream.ofSource source).toList = .ok tokens)
    (hgaps : Spacing gaps tokens) :
    ∃ tokens', (TokenStream.ofSource (respaced gaps tokens)).toList = .ok tokens' ∧
      tokens'.map Token.unplaced = tokens.map Token.unplaced := by
  obtain ⟨pieces, last, hsplit, rfl⟩ := split_of_toList h
  have hcount : gaps.length = pieces.length + 1 := by
    rw [hgaps.length_eq, List.length_append, ← List.length_map Token.unplaced,
      map_unplaced_tokensFrom, List.length_map, List.length_singleton]
  -- the last gap stands in front of the end token, behind all pieces
  obtain ⟨gaps, last', rfl⟩ : ∃ gaps' last', gaps = gaps' ++ [last'] :=
    ⟨_, _, (List.dropLast_concat_getLast (List.ne_nil_of_length_eq_add_one hcount)).symm⟩
  have hlength : gaps.length = pieces.length := by
    simpa using hcount
  have hrespaced := hsplit.of_spaced hlength hgaps.spaced
  rw [respaced_eq_written hlength .origin rfl]
  refine ⟨_, hrespaced.toList_eq, ?_⟩
  simp only [List.map_append, map_unplaced_tokensFrom, map_lexeme_regapped hlength]
  rfl

/-- Joined with single spaces, each token but the first has a space in front of it. -/
theorem joinWith_space_eq (token : Token) (tokens : List Token) :
    Text.joinWith [' '] ((token :: tokens).map Token.lexeme) =
      respaced ([] :: List.replicate tokens.length [' ']) (token :: tokens) := by
  induction tokens generalizing token with
  | nil => simp [Text.joinWith, respaced]
  | cons next tokens ih =>
    have hnext := ih next
    simpa [Text.joinWith, respaced, List.intercalate, List.replicate_succ] using hnext

theorem spacing_space (token : Token) (tokens : List Token) :
    Spacing ([] :: List.replicate tokens.length [' ']) (token :: tokens) := by
  have hgap : ∀ gap ∈ List.replicate tokens.length [' '], gap = [' '] :=
    fun gap => List.eq_of_mem_replicate
  refine ⟨by simp, List.forall_mem_cons.2 ⟨blank_nil, fun gap hmem => ?_⟩, fun gap hmem => ?_⟩
  · exact hgap gap hmem ▸ blank_space
  · rw [hgap gap (List.dropLast_subset _ hmem)]
    exact List.cons_ne_nil _ _

/-- **Lexemes are read again as the tokens that they came from.**  If a source is read to its end,
then so is every text of the lexemes of its tokens with blanks in between, at least one at each
place and possibly others at another, and with any blanks at both ends.  The tokens have the same
types, values and lexemes, the end token included.  Single spaces are such blanks. -/
theorem toList_respaced (h : (TokenStream.ofSource source).toList = .ok tokens) :
    (∀ gaps, Spacing gaps tokens →
      ∃ tokens', (TokenStream.ofSource (respaced gaps tokens)).toList = .ok tokens' ∧
        tokens'.map Token.unplaced = tokens.map Token.unplaced) ∧
    (∃ tokens', (TokenStream.ofSource
        (Text.joinWith [' '] (tokens.map Token.lexeme))).toList = .ok tokens' ∧
      tokens'.map Token.unplaced = tokens.map Token.unplaced) := by
  refine ⟨fun gaps hgaps => toList_of_spacing h hgaps, ?_⟩
  cases tokens with
  | nil =>
    obtain ⟨pieces, last, -, htokens⟩ := split_of_toList h
    exact absurd htokens.symm (List.append_ne_nil_of_right_ne_nil _ (List.cons_ne_nil _ _))
  | cons token tokens =>
    rw [joinWith_space_eq]
    exact toList_of_spacing h (spacing_space token tokens)

/-- Of two like names with a colon between them, the one that is parted stays three tokens and the
one that is not stays one. -/
theorem toList_respaced_colons :
    let lexemes : List Lexeme := [
      ⟨.identifier ['f'], ['f']⟩, ⟨.sign .colon [':'], [':']⟩, ⟨.identifier ['g'], ['g']⟩,
      ⟨.sign .leftParen ['('], ['(']⟩, ⟨.qualifiedName ['f'] ['g'], "f:g".toList⟩,
      ⟨.sign .leftParen ['('], ['(']⟩, ⟨.eof, []⟩]
    ∃ tokens tokens' tokens'',
      (TokenStream.ofSource "f :g(f:g(".toList).toList = .ok tokens ∧
      (TokenStream.ofSource "\tf\n:\tg\n (\tf:g\n(".toList).toList = .ok tokens' ∧
      (TokenStream.ofSource "f : g ( f:g ( ".toList).toList = .ok tokens'' ∧
      tokens.map Token.unplaced = lexemes ∧ tokens'.map Token.unplaced = lexemes ∧
      tokens''.map Token.unplaced = lexemes := by
  intro lexemes
  have hsplit : Split "f :g(f:g(".toList [
      ⟨[], .identifier ['f'], ['f']⟩, ⟨[' '], .sign .colon [':'], [':']⟩,
      ⟨[], .identifier ['g'], ['g']⟩, ⟨[], .sign .leftParen ['('], ['(']⟩,
      ⟨[], .qualifiedName ['f'] ['g'], "f:g".toList⟩,
      ⟨[], .sign .leftParen ['('], ['(']⟩] [] := by
    refine ⟨rfl, ⟨blank_nil, ?_, blank_space, ?_, blank_nil, ?_, blank_nil, ?_, blank_nil, ?_,
      blank_nil, ?_, trivial⟩, blank_nil⟩
    all_goals exact Lexeme.stands_of_read_append rfl rfl
  obtain ⟨hgaps, tokens'', hspaces, hsame'⟩ := toList_respaced hsplit.toList_eq
  obtain ⟨tokens', hrespaced, hsame⟩ := hgaps
    [['\t'], ['\n'], ['\t'], ['\n', ' '], ['\t'], ['\n'], []] <| by
      refine ⟨rfl, ?_, by decide⟩
      simp only [Blank, List.forall_mem_cons, List.not_mem_nil, false_imp_iff, implies_true,
        and_true]
      decide
  exact ⟨_, tokens', tokens'', hsplit.toList_eq, hrespaced, hspaces, rfl, hsame, hsame'⟩

end

end ExprLang
