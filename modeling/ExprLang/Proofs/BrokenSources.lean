import ExprLang.Proofs.EarliestError
import ExprLang.Proofs.SourceReading

/-!
# Errors in front of a lexical error

A source that cannot be read to its end breaks off in a lexical error behind some tokens.  The
parser pulls these tokens one by one, so what is wrong at one of them is reported before the lexical
error is met, and it is reported in the same way whatever the tokens would have been followed by.
An operator that does not belong to the language is the one exception: it is complained about only
when the token behind it has been pulled, so behind the last token the lexical error comes first.

* `parseTokens_error_placed` — a parse error stands at a token of its stream and is settled there.
* `ErrorAmong`, `ErrorBehind` — an error at one of the first tokens of a list, or behind them.
* `parse_of_broken_source` — what is reported for a source that breaks off, in both cases.
-/

namespace ExprLang

open Parser

variable {options : ParserOptions} {stream : TokenStream} {source : Text}
  {tokens before after others : List Token} {lexical : LexicalError} {error : ParseError}

/-! ## The place of an error in any stream -/

/-- The error stands at a token of the stream, behind some others and in front of some.  Unless it
is the end, every stream that starts in this way has the same error; one that is found only behind
its token has something there. -/
structure PlacedAt (options : ParserOptions) (stream : TokenStream) (error : ParseError)
    (before after : List Token) : Prop where
  tokens_eq : stream.tokens = before ++ error.token :: after
  settled : error.token.type ≠ .eof → Settled options before error
  ahead : error.token.type ≠ .eof → error.reason.looksAhead = true →
    ∃ c, Cursor.pull after stream.ending = .ok c

/-- The place is one of the list, also if that goes on with an end token. -/
theorem PlacedAt.located (h : PlacedAt options stream error before after) (final : Token) :
    before ++ [error.token] <+: stream.tokens ++ [final] := by
  rw [h.tokens_eq]
  exact ⟨after ++ [final], by simp⟩

/-- A parse error stands at a token of the stream or at its end. -/
theorem parseTokens_error_placed (hstream : stream.Terminated)
    (h : parseTokens options stream = .error (.parse error)) :
    (∃ before after, PlacedAt options stream error before after) ∨
      stream.ending = .ok error.token := by
  obtain ⟨tokens, ending⟩ := stream
  unfold parseTokens at h
  split at h
  · rename_i hpull
    obtain ⟨lexical, rfl, -⟩ := Cursor.pull_error hpull
    cases h
  · rename_i c hpull
    have hc : c.ending = ending := (Cursor.pull_ok hpull).1
    have hterminated : c.Terminated := by
      intro final hfinal
      exact hstream final (hc.symm.trans hfinal)
    split at h
    · -- nothing has been read, and the first token is an end
      rename_i hstart
      cases h
      have hend : c.current.type = .eof := of_decide_eq_true hstart
      rcases Cursor.pull_consumes hstream hpull (.refl c) with hplace | ⟨-, hending⟩
      · exact .inl ⟨[], c.rest, hplace, absurd hend, absurd hend⟩
      · exact .inr hending
    · cases (definite_expression options options.maxDepth).1.judges c hterminated with
      | @reads ts c' e hts _ hyields =>
        rw [hyields c c' hterminated hts rfl] at h
        dsimp only at h
        split at h
        · cases h
        · cases h
          rcases Cursor.pull_consumes hstream hpull hts with hplace | ⟨-, hending⟩
          · refine .inl ⟨ts, c'.rest, hplace, fun hne => ?_, fun _ => nofun⟩
            exact settled_of_yields (fun t ht => hts.ne_eof ht) hne hyields
          · exact .inr hending
      | @refuses ts c' reason hts _ hahead hrefuses =>
        rw [hrefuses c c' hterminated hts rfl hahead] at h
        cases h
        rcases Cursor.pull_consumes hstream hpull hts with hplace | ⟨-, hending⟩
        · refine .inl ⟨ts, c'.rest, hplace, fun hne => ?_, fun hne hreason => ?_⟩
          · exact settled_of_refuses (fun t ht => hts.ne_eof ht) hne hrefuses
          · obtain ⟨c'', hadvance⟩ := hahead hreason
            refine ⟨c'', ?_⟩
            show Cursor.pull c'.rest ending = .ok c''
            rw [← hc, ← hts.ending, ← hadvance, Cursor.advance, Cursor.isAtEnd,
              decide_eq_false hne, if_neg Bool.false_ne_true]
        · exact .inr hending
      | breaks _ hbreaks =>
        rw [hbreaks] at h
        cases h

/-! ## Sources that break off -/

/-- The error stands at one of the tokens, and it does so whatever comes behind that one. -/
structure ErrorAmong (options : ParserOptions) (tokens : List Token) (error : ParseError)
    (before after : List Token) : Prop where
  tokens_eq : tokens = before ++ error.token :: after
  final : ∀ others,
    parseTokens options (.ofTokens (before ++ error.token :: others)) = .error (.parse error)

/-- The error stands behind all of the tokens, at one of the others or at the end. -/
def ErrorBehind (tokens others : List Token) (error : ParseError) : Prop :=
  ∃ before, tokens <+: before ∧
    before ++ [error.token] <+: tokens ++ others ++ [TokenStream.endAfter (tokens ++ others)]

/-- In a list of tokens that goes on, the error stands at one of the first ones or behind them. -/
theorem among_or_behind (htokens : ∀ t ∈ tokens, t.type ≠ .eof)
    (h : parseTokens options (.ofTokens (tokens ++ others)) = .error (.parse error)) :
    (∃ before after, tokens = before ++ error.token :: after ∧ Settled options before error) ∨
      ErrorBehind tokens others error := by
  have hstream := TokenStream.ends_ofTokens (tokens ++ others)
  rcases parseTokens_error_placed hstream.terminated h with ⟨before, after, hplaced⟩ | hending
  · have hplace : tokens ++ others = before ++ error.token :: after := hplaced.tokens_eq
    rcases List.append_eq_append_iff.1 hplace with ⟨rest, rfl, -⟩ | ⟨rest, rfl, hrest⟩
    · exact .inr ⟨tokens ++ rest, List.prefix_append _ _, hplaced.located _⟩
    · cases rest with
      | nil => exact .inr ⟨before, by simp, hplaced.located _⟩
      | cons t rest =>
        cases hrest
        exact .inl ⟨before, rest, rfl, hplaced.settled (htokens error.token (by simp))⟩
  · have hend : TokenStream.endAfter (tokens ++ others) = error.token := Except.ok.inj hending
    exact .inr ⟨tokens ++ others, List.prefix_append _ _, [], by rw [hend, List.append_nil]⟩

/-- **A parse error comes before the lexical error behind it.**  Suppose that a source breaks off
behind some tokens, and that these tokens with some others behind them are refused by the parser.
If the error stands at one of the tokens, then this is what is reported for the source as well,
unless it has to be looked behind the last token to find the error: then it is the lexical error.
If it stands at none of them, it is the lexical error, too. -/
theorem parse_of_broken_source (hsource : TokenStream.ofSource source = ⟨tokens, .error lexical⟩)
    (h : parseTokens options (.ofTokens (tokens ++ others)) = .error (.parse error)) :
    (∃ before after, ErrorAmong options tokens error before after ∧
      parse options source = .error
        (if error.reason.looksAhead = true ∧ after = [] then .lexical lexical else .parse error)) ∨
    (ErrorBehind tokens others error ∧ parse options source = .error (.lexical lexical)) := by
  have htokens : ∀ t ∈ tokens, t.type ≠ .eof := by
    have hall := Lexer.ne_eof_of_mem_all (Lexer.start source)
    change ∀ t ∈ (TokenStream.ofSource source).tokens, t.type ≠ .eof at hall
    rwa [hsource] at hall
  have hstream : (TokenStream.mk tokens (.error lexical)).Terminated := nofun
  rw [parse, hsource]
  cases hread : parseTokens options ⟨tokens, .error lexical⟩ with
  | ok e =>
    obtain ⟨final, hending⟩ := ending_of_parseTokens htokens hread
    cases hending
  | error read =>
    cases read with
    | parse error' =>
      rcases parseTokens_error_placed hstream hread with ⟨before, after, hplaced⟩ | hending
      · have hplace : tokens = before ++ error'.token :: after := hplaced.tokens_eq
        have hne : error'.token.type ≠ .eof := htokens _ (by simp [hplace])
        have hsettled := hplaced.settled hne
        -- the error does not depend on what comes behind, so it is the one of the longer list
        obtain rfl : error' = error := by
          have hsame := hsettled.parseTokens_eq (after ++ others)
          rw [← List.cons_append, ← List.append_assoc, ← hplace, h] at hsame
          cases hsame
          rfl
        refine .inl ⟨before, after, ⟨hplace, hsettled.parseTokens_eq⟩, ?_⟩
        rw [if_neg]
        rintro ⟨hreason, rfl⟩
        obtain ⟨c, hpull⟩ := hplaced.ahead hne hreason
        cases hpull
      · cases hending
    | lexical lexical' =>
      obtain rfl : lexical = lexical' := Except.error.inj (ending_of_parseTokens_lexical hread)
      rcases among_or_behind htokens h with ⟨before, after, hplace, hsettled⟩ | hbehind
      · refine .inl ⟨before, after, ⟨hplace, hsettled.parseTokens_eq⟩, ?_⟩
        rw [if_pos]
        refine Decidable.byContradiction fun hnot => ?_
        -- otherwise the parser would have come to the error
        have hparse := hsettled after (.error lexical) nofun fun hreason => by
          cases after with
          | nil => exact absurd ⟨hreason, rfl⟩ hnot
          | cons next after => exact ⟨_, rfl⟩
        rw [← hplace, hread] at hparse
        cases hparse
      · exact .inr ⟨hbehind, rfl⟩

/-- A closing parenthesis, where no expression can start, and then a character that starts no
token. -/
theorem parse_of_broken_source_parenthesis :
    let source := ") @".toList
    let parenthesis := Token.mk (.sign .rightParen [')']) .origin [')']
    let lexical : LexicalError := ⟨.unexpectedCharacter '@', ⟨2, 1, 3⟩⟩
    let error : ParseError := ⟨.expectedExpression, parenthesis⟩
    TokenStream.ofSource source = ⟨[parenthesis], .error lexical⟩ ∧
      parseTokens {} (.ofTokens ([parenthesis] ++ [.ofType .plus])) = .error (.parse error) ∧
      ((∃ before after, ErrorAmong {} [parenthesis] error before after ∧ parse {} source = .error
        (if error.reason.looksAhead = true ∧ after = [] then .lexical lexical else .parse error)) ∨
      (ErrorBehind [parenthesis] [.ofType .plus] error ∧
        parse {} source = .error (.lexical lexical))) := by
  intro source parenthesis lexical error
  have hparenthesis : (Lexer.start source).next =
      (.ok parenthesis, ⟨" @".toList, ⟨1, 1, 2⟩⟩) := rfl
  have hbreak : Lexer.next ⟨" @".toList, ⟨1, 1, 2⟩⟩ =
      (.error lexical, ⟨"@".toList, ⟨2, 1, 3⟩⟩) := rfl
  have hsource : TokenStream.ofSource source = ⟨[parenthesis], .error lexical⟩ := by
    rw [TokenStream.ofSource, Lexer.all_of_next_ok hparenthesis, Lexer.all_of_next_error hbreak]
    rfl
  have herror : parseTokens {} (.ofTokens ([parenthesis] ++ [.ofType .plus])) =
      .error (.parse error) := rfl
  exact ⟨hsource, herror, parse_of_broken_source hsource herror⟩

/-- The pattern operator does not belong to the language of the default options, and every list that
starts with a name and this operator is refused at the operator.  A source that breaks off behind it
is refused for the character behind it all the same. -/
theorem lexical_error_behind_forbidden_operator :
    let name := Token.mk (.identifier ['a']) .origin ['a']
    let sign := Token.mk (.sign .wildcard ['~', '=']) ⟨2, 1, 3⟩ ['~', '=']
    let lexical : LexicalError := ⟨.unexpectedCharacter '@', ⟨5, 1, 6⟩⟩
    TokenStream.ofSource "a ~= @".toList = ⟨[name, sign], .error lexical⟩ ∧
      parseTokens {} (.ofTokens ([name, sign] ++ [name])) =
        .error (.parse ⟨.operatorNotAllowed, sign⟩) ∧
      parse {} "a ~= @".toList = .error (.lexical lexical) := by
  intro name sign lexical
  have hname : (Lexer.start "a ~= @".toList).next =
      (.ok name, ⟨" ~= @".toList, ⟨1, 1, 2⟩⟩) := rfl
  have hsign : Lexer.next ⟨" ~= @".toList, ⟨1, 1, 2⟩⟩ =
      (.ok sign, ⟨" @".toList, ⟨4, 1, 5⟩⟩) := rfl
  have hbreak : Lexer.next ⟨" @".toList, ⟨4, 1, 5⟩⟩ =
      (.error lexical, ⟨"@".toList, ⟨5, 1, 6⟩⟩) := rfl
  have hsource : TokenStream.ofSource "a ~= @".toList = ⟨[name, sign], .error lexical⟩ := by
    rw [TokenStream.ofSource, Lexer.all_of_next_ok hname, Lexer.all_of_next_ok hsign,
      Lexer.all_of_next_error hbreak]
    rfl
  refine ⟨hsource, rfl, ?_⟩
  rw [parse, hsource]
  rfl

end ExprLang
