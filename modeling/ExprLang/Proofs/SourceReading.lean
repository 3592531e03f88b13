import ExprLang.Proofs.LexerExactness
import ExprLang.Proofs.ParserExactness

/-!
# The sources of an expression

The lexical grammar and the grammar of tokens, put together for whole sources.

* `ending_of_parseTokens` — a stream that breaks off in a lexical error is no expression, so a
  source that the parser accepts has been read by the lexer to its end.
* `parse_eq_ok_iff` — a source is read as a tree exactly if it is cut into lexemes whose tokens are
  a phrase of that tree within the allowed depth.
-/

namespace ExprLang

/-! ## Streams that break off -/

namespace Cursor

variable {c c' : Cursor}

/-- A cursor of a stream that breaks off in an error and has no end token before. -/
def Broken (c : Cursor) : Prop :=
  (∃ lexical, c.ending = .error lexical) ∧ ∀ t ∈ c.current :: c.rest, t.type ≠ .eof

theorem Broken.advance (h : c.Broken) (hadvance : c.advance = .ok c') : c'.Broken := by
  obtain ⟨⟨lexical, hending⟩, htokens⟩ := h
  have hcurrent := htokens c.current List.mem_cons_self
  rw [Cursor.advance, isAtEnd, decide_eq_false hcurrent, if_neg Bool.false_ne_true, hending]
    at hadvance
  cases hrest : c.rest with
  | nil =>
    rw [hrest] at hadvance
    cases hadvance
  | cons next rest =>
    rw [hrest] at hadvance htokens
    cases hadvance
    exact ⟨⟨lexical, rfl⟩, fun t ht => htokens t (List.mem_cons_of_mem _ ht)⟩

theorem Broken.consumes {ts : List Token} (h : c.Broken) (hts : Consumes c ts c') : c'.Broken := by
  induction hts with
  | refl => exact h
  | step _ hadvance _ ih => exact ih (h.advance hadvance)

end Cursor

section

variable {options : ParserOptions} {stream : TokenStream} {e : Expr}

/-- A stream that is read as an expression does not break off. -/
theorem ending_of_parseTokens (htokens : ∀ t ∈ stream.tokens, t.type ≠ .eof)
    (h : parseTokens options stream = .ok e) : ∃ token, stream.ending = .ok token := by
  obtain ⟨tokens, ending⟩ := stream
  cases ending with
  | ok token => exact ⟨token, rfl⟩
  | error lexical =>
    unfold parseTokens at h
    cases tokens with
    | nil => cases h
    | cons first rest =>
      dsimp only [Cursor.ofStream, Cursor.pull] at h
      split at h
      · cases h
      · split at h
        · cases h
        · rename_i e₁ c₁ hread
          obtain ⟨ts, hts, -⟩ := (Parser.sound_expression options options.maxDepth).1.ok hread
          have hbroken : Cursor.Broken ⟨first, rest, .error lexical⟩ := ⟨⟨lexical, rfl⟩, htokens⟩
          have hend := (hbroken.consumes hts).2 c₁.current List.mem_cons_self
          rw [Cursor.isAtEnd, decide_eq_false hend] at h
          cases h

end

/-! ## Sources -/

section

variable {options : ParserOptions} {source last : Text} {pieces : List Piece} {e : Expr}

theorem ne_eof_of_mem_tokensFrom (h : WellPlaced pieces last) (loc : Location) :
    ∀ t ∈ tokensFrom loc pieces, t.type ≠ .eof := by
  induction pieces generalizing loc with
  | nil => nofun
  | cons piece pieces ih =>
    obtain ⟨gap, content, text⟩ := piece
    obtain ⟨-, hlexeme, hpieces⟩ := h
    exact List.forall_mem_cons.2 ⟨hlexeme.type_ne_eof, ih hpieces _⟩

theorem Lexer.ne_eof_of_mem_all (lexer : Lexer) : ∀ t ∈ lexer.all.tokens, t.type ≠ .eof := by
  fun_induction all lexer with
  | case1 | case2 => simp
  | case3 lexer token lexer' hnext htype stream ih => exact List.forall_mem_cons.2 ⟨htype, ih⟩

theorem Split.ofSource_eq (h : Split source pieces last) : TokenStream.ofSource source =
    ⟨tokensFrom .origin pieces, .ok (.eof (Location.origin.after source))⟩ := by
  obtain ⟨rfl, hplaced, hlast⟩ := h
  exact Lexer.all_written hplaced hlast

/-- **The sources of an expression.** -/
theorem parse_eq_ok_iff : parse options source = .ok e ↔
    ∃ pieces last n, Split source pieces last ∧ n ≤ options.maxDepth ∧
      Derives options .expression (tokensFrom .origin pieces) e n := by
  have hderives : ∀ {pieces last}, Split source pieces last → (parse options source = .ok e ↔
      ∃ n ≤ options.maxDepth, Derives options .expression (tokensFrom .origin pieces) e n) := by
    intro pieces last hsplit
    have hstream := hsplit.ofSource_eq
    have hends : (TokenStream.ofSource source).Ends := hstream ▸ ⟨_, rfl, rfl⟩
    have htokens : untilEnd (TokenStream.ofSource source).tokens = tokensFrom .origin pieces := by
      rw [hstream]
      exact untilEnd_eq_self (ne_eof_of_mem_tokensFrom hsplit.wellPlaced _)
    rw [← htokens]
    refine ⟨derives_of_parseTokens hends, ?_⟩
    rintro ⟨n, hn, hd⟩
    rcases parseTokens_of_derives hends hd with ⟨-, hread⟩ | ⟨hlt, -⟩
    · exact hread
    · exact absurd hn (Nat.not_le.2 hlt)
  constructor
  · intro h
    obtain ⟨ending, hending⟩ := ending_of_parseTokens (Lexer.ne_eof_of_mem_all _) h
    obtain ⟨pieces, last, hsplit⟩ := Lexer.split_of_all hending
    obtain ⟨n, hn, hd⟩ := (hderives hsplit).1 h
    exact ⟨pieces, last, n, hsplit, hn, hd⟩
  · rintro ⟨pieces, last, n, hsplit, hn, hd⟩
    exact (hderives hsplit).2 ⟨n, hn, hd⟩

end

end ExprLang
