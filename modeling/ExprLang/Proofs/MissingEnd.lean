import ExprLang.Proofs.ErrorPlaces
import ExprLang.Proofs.Relabelling
import ExprLang.Proofs.Respacing

/-!
# Lists of tokens without an end

The tokens of a source can be parsed without the end token behind them.  The parser then makes an
end of its own, directly behind the last token, which is the offset of the real one if no blanks
stand there.  The line and the column of that offset are not worked out: an end that is made is said
to be in the first column of the first line.

* `Relabelling.ofEnds` — what the parser makes of the real end.
* `Split.ofTokens_eq` — the tokens without an end are the stream of the source up to that change.
* `SameFailure` — what the errors have in common, and exactly when they are the same.
* `Agrees` — equal trees, or such errors.
* `agrees_without_end` — the outcomes for a source and for its tokens without an end.
-/

namespace ExprLang

/-- An end token loses its line and its column. -/
def Relabelling.ofEnds : Relabelling where
  apply t := if t.type = .eof then { t with location := ⟨t.location.offset, 1, 1⟩ } else t
  content_eq t := by split <;> rfl

namespace Relabelling

theorem ofEnds_of_ne_eof {t : Token} (h : t.type ≠ .eof) : ofEnds.apply t = t :=
  if_neg h

theorem map_ofEnds {tokens : List Token} (h : ∀ t ∈ tokens, t.type ≠ .eof) :
    tokens.map ofEnds.apply = tokens :=
  (List.map_congr_left fun t ht => ofEnds_of_ne_eof (h t ht)).trans tokens.map_id

@[simp] theorem lexeme_ofEnds (t : Token) : (ofEnds.apply t).lexeme = t.lexeme := by
  simp only [ofEnds]
  split <;> rfl

@[simp] theorem offset_ofEnds (t : Token) :
    (ofEnds.apply t).location.offset = t.location.offset := by
  simp only [ofEnds]
  split <;> rfl

end Relabelling

section

variable {options : ParserOptions} {source last : Text} {pieces : List Piece} {tokens : List Token}
  {parsed : ParseError}

/-- The place of the end. -/
theorem Location.atOffset_length (source : Text) :
    atOffset source source.length = origin.after source := by
  have h := atOffset_append source []
  rwa [List.append_nil] at h

/-! ## The end that is made -/

theorem written_eq_append (pieces : List Piece) (last : Text) :
    written pieces last = written pieces [] ++ last := by
  induction pieces with
  | nil => rfl
  | cons piece pieces ih => simp only [written, ih, List.append_assoc]

/-- Where the source does not end in a blank, nothing stands behind its last piece. -/
theorem Split.last_eq_nil (h : Split source pieces last)
    (hlast : ∀ c ∈ source.getLast?, Unicode.isBlank c = false) : last = [] := by
  obtain ⟨rfl, -, hblank⟩ := h
  refine Decidable.byContradiction fun hne => ?_
  have hmem : last.getLast hne ∈ (written pieces last).getLast? := by
    rw [written_eq_append, List.getLast?_append, List.getLast?_eq_some_getLast hne]
    exact rfl
  exact Bool.false_ne_true ((hlast _ hmem).symm.trans (hblank _ (List.getLast_mem hne)))

/-- Behind pieces without blanks at their end, the end that is made stands at the end of the text. -/
theorem endAfter_tokensFrom (pieces : List Piece) :
    TokenStream.endAfter (tokensFrom .origin pieces) = .eof ⟨(written pieces []).length, 1, 1⟩ := by
  rcases List.eq_nil_or_concat pieces with rfl | ⟨pieces, ⟨gap, content, text⟩, rfl⟩
  · rfl
  · have hlast : (tokensFrom .origin (pieces ++ [⟨gap, content, text⟩])).getLast? =
        some ⟨content, (Location.origin.after (written pieces [])).after gap, text⟩ := by
      rw [tokensFrom_append, tokensFrom, tokensFrom, List.getLast?_concat]
    have hlength : (written (pieces ++ [⟨gap, content, text⟩]) []).length =
        (written pieces []).length + gap.length + text.length := by
      rw [written_append, written_eq_append]
      simp [written, Nat.add_assoc]
    rw [List.concat_eq_append, TokenStream.endAfter, hlast, hlength]
    simp only [Location.offset_after _ gap, Location.offset_origin_after]

theorem Split.endAfter_eq (h : Split source pieces []) :
    TokenStream.endAfter (tokensFrom .origin pieces) = .eof ⟨source.length, 1, 1⟩ := by
  rw [endAfter_tokensFrom, ← h.source_eq]

/-- The tokens without an end are the stream of the source up to the place of the end. -/
theorem Split.ofTokens_eq (h : Split source pieces []) :
    TokenStream.ofTokens (tokensFrom .origin pieces) =
      (TokenStream.ofSource source).relabel .ofEnds := by
  have htokens := Relabelling.map_ofEnds (ne_eof_of_mem_tokensFrom h.wellPlaced .origin)
  have hend : Relabelling.ofEnds.apply (.eof (Location.origin.after source)) =
      .eof ⟨source.length, 1, 1⟩ := by
    rw [← Location.offset_origin_after]
    rfl
  rw [h.ofSource_eq, TokenStream.ofTokens, h.endAfter_eq, TokenStream.relabel, htokens, Except.map,
    hend]

/-! ## Errors -/

/-- The errors that are found in the tokens of a source without their end, and in the source. -/
structure SameFailure (source : Text) (found parsed : ParseError) : Prop where
  reason_eq : found.reason = parsed.reason
  text_eq : found.text = parsed.text
  message_eq : found.message = parsed.message
  offset_eq : found.token.location.offset = parsed.token.location.offset
  /-- In front of the end, the errors are the same. -/
  eq_of_ne_eof : parsed.token.type ≠ .eof → found = parsed
  /-- At the end, each of them has its own end token. -/
  ends_of_eof : parsed.token.type = .eof → found.token = .eof ⟨source.length, 1, 1⟩ ∧
    parsed.token = .eof (.atOffset source source.length)
  /-- The lines and the columns are the same in front of the end, and in the empty source. -/
  location_eq_iff : found.token.location = parsed.token.location ↔
    parsed.token.type ≠ .eof ∨ source = []

/-- What is found in a source, and in the tokens of it without their end. -/
inductive Agrees (source : Text) : Except SyntaxError Expr → Except SyntaxError Expr → Prop where
  | tree (e : Expr) : Agrees source (.ok e) (.ok e)
  | failure {found parsed : ParseError} : SameFailure source found parsed →
    Agrees source (.error (.parse found)) (.error (.parse parsed))

theorem sameFailure_ofEnds
    (hend : parsed.token.type = .eof → parsed.token = .eof (.atOffset source source.length)) :
    SameFailure source ⟨parsed.reason, Relabelling.ofEnds.apply parsed.token⟩ parsed := by
  have htext : ParseError.text ⟨parsed.reason, Relabelling.ofEnds.apply parsed.token⟩ =
      parsed.text := by
    rw [ParseError.text, ParseError.text, Relabelling.lexeme_ofEnds]
  have hfront : parsed.token.type ≠ .eof →
      (⟨parsed.reason, Relabelling.ofEnds.apply parsed.token⟩ : ParseError) = parsed :=
    fun hne => congrArg (ParseError.mk parsed.reason) (Relabelling.ofEnds_of_ne_eof hne)
  have hends : parsed.token.type = .eof →
      Relabelling.ofEnds.apply parsed.token = .eof ⟨source.length, 1, 1⟩ := by
    intro htype
    rw [hend htype]
    rfl
  constructor
  case reason_eq => rfl
  case text_eq => exact htext
  case message_eq => rw [ParseError.message, ParseError.message, htext, Relabelling.offset_ofEnds]
  case offset_eq => exact Relabelling.offset_ofEnds parsed.token
  case eq_of_ne_eof => exact hfront
  case ends_of_eof => exact fun htype => ⟨hends htype, hend htype⟩
  case location_eq_iff =>
    by_cases htype : parsed.token.type = .eof
    · rw [hends htype, hend htype]
      show (⟨source.length, 1, 1⟩ : Location) = .atOffset source source.length ↔ _
      rw [Template.atOffset_eq_first_iff, List.length_eq_zero_iff]
      exact ⟨.inr, fun h => h.resolve_left fun hne => hne rfl⟩
    · exact ⟨fun _ => .inl htype, fun _ => by rw [hfront htype]⟩

/-- An expression that breaks off at an end does so at the end of its source. -/
theorem Split.token_eq_of_eof (h : Split source pieces last)
    (hparse : parse options source = .error (.parse parsed)) (htype : parsed.token.type = .eof) :
    parsed.token = .eof (.atOffset source source.length) := by
  rw [Location.atOffset_length]
  rcases parseTokens_error_placed (Lexer.terminated_all _) hparse with
    ⟨before, after, hplaced⟩ | hending
  · refine absurd htype (Lexer.ne_eof_of_mem_all (Lexer.start source) _ ?_)
    exact hplaced.tokens_eq ▸ List.mem_append_right before List.mem_cons_self
  · exact Except.ok.inj (hending.symm.trans (congrArg TokenStream.ending h.ofSource_eq))

theorem Split.agrees (h : Split source pieces []) :
    Agrees source (parseTokens options (.ofTokens (tokensFrom .origin pieces)))
      (parse options source) := by
  have houtcome : parseTokens options (.ofTokens (tokensFrom .origin pieces)) =
      relabelled .ofEnds id (parse options source) := by
    rw [h.ofTokens_eq, parse, parseTokens_relabel]
  rw [houtcome]
  cases hparse : parse options source with
  | ok e => exact .tree e
  | error error =>
    cases error with
    | lexical error =>
      have hending := ending_of_parseTokens_lexical hparse
      rw [h.ofSource_eq] at hending
      cases hending
    | parse parsed => exact .failure (sameFailure_ofEnds fun htype => h.token_eq_of_eof hparse htype)

/-- **The tokens of a source can be parsed without their end.**  If a source that does not end in a
blank is read to its end, then its tokens without the end token make the same tree as the source.
Where there is none, both are refused for the same reason, with the same message and at the same
offset.  The errors are the same if they stand at a token.  At the end they have the line and the
column of the end in one case and those of the start in the other, so that they are the same only
for the empty source. -/
theorem agrees_without_end (h : (TokenStream.ofSource source).toList = .ok tokens)
    (hlast : ∀ c ∈ source.getLast?, Unicode.isBlank c = false) :
    Agrees source (parseTokens options (.ofTokens tokens.dropLast)) (parse options source) ∧
      TokenStream.endAfter tokens.dropLast = .eof ⟨source.length, 1, 1⟩ ∧
      tokens.getLast? = some (.eof (.atOffset source source.length)) := by
  obtain ⟨pieces, last, hsplit, rfl⟩ := split_of_toList h
  obtain rfl := hsplit.last_eq_nil hlast
  rw [List.dropLast_concat, List.getLast?_concat, Location.atOffset_length]
  exact ⟨hsplit.agrees, hsplit.endAfter_eq, rfl⟩

/-- A member without a name, where the source breaks off on its second line. -/
theorem agrees_without_end_member :
    let source := "a\n.".toList
    ∃ tokens, (TokenStream.ofSource source).toList = .ok tokens ∧
      (∀ c ∈ source.getLast?, Unicode.isBlank c = false) ∧
      (Agrees source (parseTokens {} (.ofTokens tokens.dropLast)) (parse {} source) ∧
        TokenStream.endAfter tokens.dropLast = .eof ⟨source.length, 1, 1⟩ ∧
        tokens.getLast? = some (.eof (.atOffset source source.length))) := by
  intro source
  have hsplit : Split source [⟨[], .identifier ['a'], ['a']⟩,
      ⟨['\n'], .sign .dot ['.'], ['.']⟩] [] := by
    refine ⟨rfl, ⟨blank_nil, ?_, ?_, ?_, trivial⟩, blank_nil⟩
    · exact Lexeme.stands_of_read_append rfl rfl
    · exact List.forall_mem_singleton.2 (by decide)
    · exact Lexeme.stands_of_read_append rfl rfl
  have hlast : ∀ c ∈ source.getLast?, Unicode.isBlank c = false := by
    intro c hc
    obtain rfl : '.' = c := Option.some.inj hc
    decide
  exact ⟨_, hsplit.toList_eq, hlast, agrees_without_end hsplit.toList_eq hlast⟩

/-- A sum without its right operand.  The source is refused behind its third character, and its
tokens are refused in the first column. -/
theorem misplaced_missing_end :
    let source := "1 +".toList
    ∃ tokens, (TokenStream.ofSource source).toList = .ok tokens ∧
      (∀ c ∈ source.getLast?, Unicode.isBlank c = false) ∧
      parse {} source = .error (.parse ⟨.unexpectedEnd, .eof ⟨3, 1, 4⟩⟩) ∧
      parseTokens {} (.ofTokens tokens.dropLast) =
        .error (.parse ⟨.unexpectedEnd, .eof ⟨3, 1, 1⟩⟩) := by
  intro source
  have hsplit : Split source [⟨[], .literal .number (.long 1), ['1']⟩,
      ⟨[' '], .sign .plus ['+'], ['+']⟩] [] := by
    refine ⟨rfl, ⟨blank_nil, ?_, blank_space, ?_, trivial⟩, blank_nil⟩
    all_goals exact Lexeme.stands_of_read_append rfl rfl
  refine ⟨_, hsplit.toList_eq, ?_, ?_, rfl⟩
  · intro c hc
    obtain rfl : '+' = c := Option.some.inj hc
    decide
  · rw [parse, hsplit.ofSource_eq]
    rfl

end

end ExprLang
