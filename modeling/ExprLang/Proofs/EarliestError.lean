import Mathlib.Logic.ExistsUnique
import ExprLang.Proofs.ParserExactness
import ExprLang.Proofs.ParserLocality

/-!
# Errors at the earliest token

A list of tokens that is not an expression is refused at the first token that makes it none: what
stands in front of that token can be completed to an expression, and what stands behind it does not
matter.  Only the limit of depth is found out too early for this, since a text that is too deep at
some place could not have been completed in front of it either.

* `Settled` — an error that is found in every stream with the same front.
* `EarliestError` — what is said about the place of an error.
* `EarliestError.unique` — there is only one such place.
* `parseTokens_error_earliest` — every error but that of the depth has one.
-/

namespace ExprLang

open Parser

variable {options : ParserOptions} {tokens before before' others ts : List Token} {t : Token}
  {error : ParseError} {e : Expr} {c c' : Cursor}

/-! ## Places in a list of tokens -/

/-- What ends a stream is an end token, or an error. -/
def TokenStream.Terminated (stream : TokenStream) : Prop :=
  ∀ final, stream.ending = .ok final → final.type = .eof

theorem TokenStream.Ends.terminated {stream : TokenStream} (h : stream.Ends) :
    stream.Terminated := by
  obtain ⟨final, hending, hfinal⟩ := h
  intro token htoken
  cases hending.symm.trans htoken
  exact hfinal

namespace Cursor

/-- A cursor stands behind the tokens that have been read, at a token of the stream or at its
end. -/
theorem pull_consumes {ending : Except LexicalError Token}
    (hending : TokenStream.Terminated ⟨tokens, ending⟩) (hc : pull tokens ending = .ok c)
    (h : Consumes c ts c') :
    tokens = ts ++ c'.current :: c'.rest ∨ tokens = ts ∧ ending = .ok c'.current := by
  induction tokens generalizing c ts with
  | nil =>
    cases ending with
    | error lexical => cases hc
    | ok final =>
      cases hc
      cases h with
      | refl => exact .inr ⟨rfl, rfl⟩
      | step htype _ _ => exact absurd (hending final rfl) htype
  | cons token tokens ih =>
    cases hc
    cases h with
    | refl => exact .inl rfl
    | @step _ c₁ _ ts htype hadvance hts =>
      have hpull : pull tokens ending = .ok c₁ := by
        simpa [advance, isAtEnd, htype] using hadvance
      rcases ih hending hpull hts with hplace | ⟨hplace, hend⟩
      · exact .inl (congrArg (token :: ·) hplace)
      · exact .inr ⟨congrArg (token :: ·) hplace, hend⟩

/-- The same with the end token as a last one of the list. -/
theorem pull_located {final : Token} (hfinal : final.type = .eof)
    (hc : pull tokens (.ok final) = .ok c) (h : Consumes c ts c') :
    ts ++ [c'.current] <+: tokens ++ [final] := by
  have hstream : TokenStream.Ends ⟨tokens, .ok final⟩ := ⟨final, rfl, hfinal⟩
  rcases pull_consumes hstream.terminated hc h with rfl | ⟨rfl, hend⟩
  · exact ⟨c'.rest ++ [final], by simp⟩
  · cases hend
    exact List.prefix_refl _

/-- A list of tokens can be read up to any place in front of its end. -/
theorem pull_append (hts : ∀ s ∈ ts, s.type ≠ .eof) (t : Token) (others : List Token)
    (ending : Except LexicalError Token) :
    ∃ c, pull (ts ++ t :: others) ending = .ok c ∧ Consumes c ts ⟨t, others, ending⟩ := by
  induction ts with
  | nil => exact ⟨_, rfl, .refl _⟩
  | cons s ts ih =>
    obtain ⟨c, hc, hconsumes⟩ := ih fun u hu => hts u (List.mem_cons_of_mem s hu)
    have htype : s.type ≠ .eof := hts s List.mem_cons_self
    refine ⟨⟨s, ts ++ t :: others, ending⟩, rfl, .step htype ?_ hconsumes⟩
    simpa [advance, isAtEnd, htype] using hc

end Cursor

/-- The parser in front of a stream, and the place in it of a token that is not the end. -/
theorem ofStream_append {ending : Except LexicalError Token}
    (hending : TokenStream.Terminated ⟨ts ++ t :: others, ending⟩)
    (hts : ∀ s ∈ ts, s.type ≠ .eof) (ht : t.type ≠ .eof) :
    ∃ c, Cursor.ofStream ⟨ts ++ t :: others, ending⟩ = .ok c ∧ c.isAtEnd = false ∧
      c.Terminated ∧ Consumes c ts ⟨t, others, ending⟩ := by
  obtain ⟨c, hc, hconsumes⟩ := Cursor.pull_append hts t others ending
  refine ⟨c, hc, ?_, ?_, hconsumes⟩
  · have htype : c.current.type ≠ .eof := by
      cases hconsumes with
      | refl => exact ht
      | step htype _ _ => exact htype
    simp [Cursor.isAtEnd, htype]
  · intro final hfinal
    exact hending final ((Cursor.pull_ok hc).1.symm.trans hfinal)

/-! ## What the expression reader says about the whole list -/

theorem parseTokens_of_phraseBelow
    (h : PhraseBelow options .expression (options.maxDepth + 1) ts e) :
    parseTokens options (.ofTokens ts) = .ok e := by
  obtain ⟨n, hn, hd⟩ := h
  have hself : untilEnd (TokenStream.ofTokens ts).tokens = ts :=
    untilEnd_eq_self fun t ht => hd.ne_eof ht
  rcases parseTokens_of_derives (TokenStream.ends_ofTokens ts) (hself.symm ▸ hd) with
    ⟨-, hread⟩ | ⟨hlt, -⟩
  · exact hread
  · omega

/-- Every stream that starts with these tokens and the one at fault is refused with this error.  If
that is found out only behind the token, then there has to be something. -/
def Settled (options : ParserOptions) (before : List Token) (error : ParseError) : Prop :=
  ∀ others ending, TokenStream.Terminated ⟨before ++ error.token :: others, ending⟩ →
    (error.reason.looksAhead = true → ∃ c, Cursor.pull others ending = .ok c) →
    parseTokens options ⟨before ++ error.token :: others, ending⟩ = .error (.parse error)

theorem settled_of_refuses {reason : ParseReason} (hts : ∀ s ∈ ts, s.type ≠ .eof)
    (ht : t.type ≠ .eof) (h : Refuses (expression options options.maxDepth) ts t reason) :
    Settled options ts ⟨reason, t⟩ := by
  intro others ending hending hahead
  obtain ⟨c, hc, hstart, hterminated, hconsumes⟩ := ofStream_append hending hts ht
  have hread := h c _ hterminated hconsumes rfl fun hreason => by
    simpa [Cursor.advance, Cursor.isAtEnd, ht] using hahead hreason
  rw [parseTokens, hc]
  simp only [hstart, Bool.false_eq_true, if_false, hread, Cursor.fail]

theorem settled_of_yields (hts : ∀ s ∈ ts, s.type ≠ .eof) (ht : t.type ≠ .eof)
    (h : Yields (expression options options.maxDepth) ts t e) :
    Settled options ts ⟨.unexpectedToken, t⟩ := by
  intro others ending hending _
  obtain ⟨c, hc, hstart, hterminated, hconsumes⟩ := ofStream_append hending hts ht
  have hread := h c _ hterminated hconsumes rfl
  have hleft : Cursor.isAtEnd ⟨t, others, ending⟩ = false := by simp [Cursor.isAtEnd, ht]
  rw [parseTokens, hc]
  simp only [hstart, Bool.false_eq_true, if_false, hread, hleft, Cursor.fail]

/-- There is always something behind a token of a list. -/
theorem Settled.parseTokens_eq (h : Settled options ts error) (others : List Token) :
    parseTokens options (.ofTokens (ts ++ error.token :: others)) = .error (.parse error) := by
  have hstream := TokenStream.ends_ofTokens (ts ++ error.token :: others)
  refine h others _ hstream.terminated fun _ => ?_
  cases others with
  | nil => exact ⟨_, rfl⟩
  | cons next others => exact ⟨_, rfl⟩

theorem parseTokens_of_refuses {reason : ParseReason} (hts : ∀ s ∈ ts, s.type ≠ .eof)
    (ht : t.type ≠ .eof) (h : Refuses (expression options options.maxDepth) ts t reason)
    (others : List Token) :
    parseTokens options (.ofTokens (ts ++ t :: others)) = .error (.parse ⟨reason, t⟩) :=
  (settled_of_refuses hts ht h).parseTokens_eq others

theorem parseTokens_of_yields (hts : ∀ s ∈ ts, s.type ≠ .eof) (ht : t.type ≠ .eof)
    (h : Yields (expression options options.maxDepth) ts t e) (others : List Token) :
    parseTokens options (.ofTokens (ts ++ t :: others)) =
      .error (.parse ⟨.unexpectedToken, t⟩) :=
  (settled_of_yields hts ht h).parseTokens_eq others

/-! ## The place of an error -/

/-- The error stands behind these tokens of the list, and that is the earliest place for one. -/
structure EarliestError (options : ParserOptions) (tokens : List Token) (error : ParseError)
    (before : List Token) : Prop where
  /-- None of the tokens in front of the error is an end. -/
  proper : ∀ t ∈ before, t.type ≠ .eof
  /-- The token of the error is the next one of the list, or the end behind it. -/
  located : before ++ [error.token] <+: tokens ++ [TokenStream.endAfter tokens]
  /-- What stands in front of it can be completed to an expression. -/
  viable : ∃ completion e, parseTokens options (.ofTokens (before ++ completion)) = .ok e
  /-- If it is not the end, every list that goes on with it is refused in the same way. -/
  final : error.token.type ≠ .eof → ∀ others,
    parseTokens options (.ofTokens (before ++ error.token :: others)) = .error (.parse error)

/-- A place is not in front of another one. -/
theorem EarliestError.length_le (h : EarliestError options tokens error before)
    (h' : EarliestError options tokens error before') : before'.length ≤ before.length := by
  refine Nat.le_of_not_lt fun hlt => ?_
  have hfront : before ++ [error.token] <+: before' := by
    refine List.prefix_of_prefix_length_le h.located
      ((List.prefix_append before' [error.token]).trans h'.located) ?_
    simpa using Nat.succ_le_of_lt hlt
  obtain ⟨rest, rfl⟩ := hfront
  -- the token is one of those that can be completed, so it would have to be the end
  have htype : error.token.type ≠ .eof := h'.proper _ (by simp)
  obtain ⟨completion, e, hviable⟩ := h'.viable
  have hfinal := h.final htype (rest ++ completion)
  simp only [List.append_assoc, List.cons_append, List.nil_append] at hviable
  rw [hviable] at hfinal
  cases hfinal

theorem EarliestError.unique (h : EarliestError options tokens error before)
    (h' : EarliestError options tokens error before') : before = before' := by
  have hlength : before.length = before'.length := Nat.le_antisymm (h'.length_le h) (h.length_le h')
  have hfront : before ++ [error.token] <+: before' ++ [error.token] :=
    List.prefix_of_prefix_length_le h.located h'.located (by simp [hlength])
  exact (List.append_inj (hfront.eq_of_length (by simp [hlength])) hlength).1

/-- **Errors are reported at the earliest token.**  If a list of tokens is refused, and not because
it is too deep, then there is exactly one place in it where the error stands such that the tokens
in front of it are the front of an accepted list, and such that every list that starts with these
tokens and the one at fault, unless that is the end, is refused with the very same error. -/
theorem parseTokens_error_earliest (hdepth : 1 ≤ options.maxDepth)
    (h : parseTokens options (.ofTokens tokens) = .error (.parse error))
    (hreason : error.reason ≠ .tooDeep) :
    ∃! before, EarliestError options tokens error before := by
  suffices hexists : ∃ before, EarliestError options tokens error before by
    obtain ⟨before, hbefore⟩ := hexists
    exact ⟨before, hbefore, fun before' hbefore' => hbefore'.unique hbefore⟩
  obtain ⟨c, -, hc, hending, hterminated, -, -, -⟩ :=
    Cursor.ofStream_consumes (TokenStream.ends_ofTokens tokens)
  obtain ⟨final, hfinal, htype⟩ := TokenStream.ends_ofTokens tokens
  have hends : c.Ends := ⟨final, hending.trans hfinal, htype⟩
  cases hfinal
  have hlocated : ∀ {ts c'}, Consumes c ts c' →
      ts ++ [c'.current] <+: tokens ++ [TokenStream.endAfter tokens] :=
    fun hts => Cursor.pull_located htype hc hts
  rw [parseTokens, hc] at h
  dsimp only at h
  split at h
  · -- an empty list can be completed by any expression
    rename_i hstart
    cases h
    refine ⟨[], by simp, hlocated (.refl c), ⟨[.ofType .null], .literal .null, ?_⟩, fun hne => ?_⟩
    · exact parseTokens_of_phraseBelow (.null (by omega))
    · exact absurd (of_decide_eq_true hstart) hne
  · cases (definite_expression options options.maxDepth).1.decides c hends with
    | @reads _ _ e hts hphrase hyields =>
      rw [hyields c _ hterminated hts rfl] at h
      dsimp only at h
      split at h
      · cases h
      · cases h
        refine ⟨_, fun t ht => hts.ne_eof ht, hlocated hts, ⟨[], e, ?_⟩, fun hne => ?_⟩
        · simpa using parseTokens_of_phraseBelow hphrase
        · exact parseTokens_of_yields (fun t ht => hts.ne_eof ht) hne hyields
    | refuses hts hviable hrefuses =>
      rw [hrefuses c _ hterminated hts rfl fun _ => (hends.consumes hts).advance] at h
      cases h
      obtain ⟨us, e, he⟩ := hviable hreason
      refine ⟨_, fun t ht => hts.ne_eof ht, hlocated hts, ⟨us, e, ?_⟩, fun hne => ?_⟩
      · exact parseTokens_of_phraseBelow he
      · exact parseTokens_of_refuses (fun t ht => hts.ne_eof ht) hne hrefuses

/-- A name, a plus sign and then a closing parenthesis, which is where no operand can start. -/
theorem parseTokens_error_earliest_sum :
    let tokens := [Token.ofType .identifier, .ofType .plus, .ofType .rightParen, .ofType .null]
    let error : ParseError := ⟨.expectedExpression, .ofType .rightParen⟩
    parseTokens {} (.ofTokens tokens) = .error (.parse error) ∧
      ∃! before, EarliestError {} tokens error before := by
  refine ⟨rfl, parseTokens_error_earliest ?_ rfl ?_⟩
  · decide
  · decide

end ExprLang
