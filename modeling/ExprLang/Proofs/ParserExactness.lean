import ExprLang.Proofs.ParserCompleteness

/-!
# The parser accepts exactly the grammar

Soundness and completeness of the readers, put together for a whole stream of tokens.  Only the
tokens in front of the first end token count.

* `parseTokens_of_derives` — what the parser does on the phrase of a tree, depth included.
* `derives_of_parseTokens` — what it accepts is a phrase.
* `Derives.unique` — a phrase stands for one tree and needs one nesting.
* `parseTokens_accepts_exactly_grammar` — the three together, for every list of tokens.
-/

namespace ExprLang

/-- The tokens in front of the first end token. -/
def untilEnd (tokens : List Token) : List Token :=
  tokens.takeWhile (·.type ≠ .eof)

theorem untilEnd_eq_self {tokens : List Token} (h : ∀ t ∈ tokens, t.type ≠ .eof) :
    untilEnd tokens = tokens := by
  have hall : ∀ t ∈ tokens, decide (t.type ≠ .eof) = true := fun t ht => by simpa using h t ht
  rw [untilEnd, ← List.append_nil tokens, List.takeWhile_append_of_pos hall]
  simp

/-- A stream that ends in an end token and not in an error. -/
def TokenStream.Ends (stream : TokenStream) : Prop :=
  ∃ final, stream.ending = .ok final ∧ final.type = .eof

namespace Cursor

variable {c c' : Cursor}

theorem consumes_upcoming (c : Cursor) {final : Token} (hending : c.ending = .ok final)
    (hfinal : final.type = .eof) :
    ∃ c', Consumes c c.upcoming c' ∧ c'.current.type = .eof := by
  obtain ⟨current, rest, ending⟩ := c
  change ending = .ok final at hending
  subst hending
  induction rest generalizing current with
  | nil =>
    by_cases htype : current.type = .eof
    · exact ⟨_, by simpa [upcoming, htype] using .refl _, htype⟩
    · refine ⟨⟨final, [], .ok final⟩, ?_, hfinal⟩
      have hupcoming : upcoming ⟨current, [], .ok final⟩ = [current] := by simp [upcoming, htype]
      rw [hupcoming]
      exact .single htype (by simp [advance, isAtEnd, htype, pull])
  | cons next rest ih =>
    by_cases htype : current.type = .eof
    · exact ⟨_, by simpa [upcoming, htype] using .refl _, htype⟩
    · obtain ⟨c', hc', hend⟩ := ih next
      refine ⟨c', ?_, hend⟩
      have hupcoming : upcoming ⟨current, next :: rest, .ok final⟩ =
          current :: upcoming ⟨next, rest, .ok final⟩ := by
        rw [upcoming, List.takeWhile_cons_of_pos (by simpa using htype)]
        rfl
      rw [hupcoming]
      exact .step htype (by simp [advance, isAtEnd, htype, pull]) hc'

theorem upcoming_eq_nil (h : c.current.type = .eof) : c.upcoming = [] := by
  simp [upcoming, h]

/-- The front of a stream that ends, and the cursor at its end. -/
theorem ofStream_consumes {stream : TokenStream} (h : stream.Ends) :
    ∃ c c', ofStream stream = .ok c ∧ c.ending = stream.ending ∧ c.Terminated ∧
      c.upcoming = untilEnd stream.tokens ∧ Consumes c (untilEnd stream.tokens) c' ∧
      c'.current.type = .eof := by
  obtain ⟨tokens, ending⟩ := stream
  obtain ⟨final, hending, hfinal⟩ := h
  change ending = .ok final at hending
  subst hending
  have hterminated : ∀ current rest, Terminated ⟨current, rest, .ok final⟩ := by
    intro current rest token htoken
    cases htoken
    exact hfinal
  cases tokens with
  | nil =>
    refine ⟨⟨final, [], .ok final⟩, ⟨final, [], .ok final⟩, rfl, rfl, hterminated _ _,
      upcoming_eq_nil hfinal, .refl _, hfinal⟩
  | cons token tokens =>
    obtain ⟨c', hconsumes, hend⟩ :=
      consumes_upcoming ⟨token, tokens, .ok final⟩ rfl hfinal
    exact ⟨_, c', rfl, rfl, hterminated _ _, rfl, hconsumes, hend⟩

end Cursor

section

variable {options : ParserOptions} {stream : TokenStream} {ts : List Token} {e e' : Expr}
  {n n' : Nat}

/-- The phrase of a tree is read as that tree within the nesting that it needs, and is too deep
otherwise. -/
theorem parseTokens_of_derives (hstream : stream.Ends)
    (h : Derives options .expression (untilEnd stream.tokens) e n) :
    Parser.Settles n options.maxDepth (parseTokens options stream) e := by
  obtain ⟨c, c', hc, -, hterminated, -, hconsumes, hend⟩ := Cursor.ofStream_consumes hstream
  have hstart : c.isAtEnd = false := by
    obtain ⟨t, us, htokens, ht⟩ := h.starts
    rw [htokens] at hconsumes
    obtain ⟨rfl, hne, -⟩ := Consumes.cons_iff.1 hconsumes
    simp [Cursor.isAtEnd, hne]
  have hread := Parser.reads_of_derives h options.maxDepth c c' hterminated hconsumes
    (by rw [hend]; decide)
  change Parser.Settles n _ (Parser.expression options options.maxDepth c) _ at hread
  rw [parseTokens, hc]
  simp only [hstart, Bool.false_eq_true, if_false]
  rcases hread with ⟨hn, hread⟩ | ⟨hn, token, hread⟩
  · exact .inl ⟨hn, by simp [hread, Cursor.isAtEnd, hend]⟩
  · exact .inr ⟨hn, token, by rw [hread]⟩

theorem derives_of_parseTokens (hstream : stream.Ends) (h : parseTokens options stream = .ok e) :
    ∃ n ≤ options.maxDepth, Derives options .expression (untilEnd stream.tokens) e n := by
  obtain ⟨c, -, hc, -, hterminated, hupcoming, -, -⟩ := Cursor.ofStream_consumes hstream
  rw [parseTokens, hc] at h
  dsimp only at h
  split at h
  · cases h
  · split at h
    · cases h
    · rename_i e₁ c₁ hread
      split at h
      · rename_i hend
        cases h
        obtain ⟨ts, hts, n, hn, hd⟩ :=
          (Parser.sound_expression options options.maxDepth).1.ok hread
        have htokens := hts.upcoming hterminated
        rw [Cursor.upcoming_eq_nil (of_decide_eq_true hend), List.append_nil, hupcoming] at htokens
        exact ⟨n, Nat.le_of_lt_succ hn, htokens ▸ hd⟩
      · cases h

/-- A lexical error is the one that the stream breaks off in. -/
theorem ending_of_parseTokens_lexical {lexical : LexicalError}
    (h : parseTokens options stream = .error (.lexical lexical)) :
    stream.ending = .error lexical := by
  unfold parseTokens at h
  split at h
  · rename_i hpull
    obtain ⟨lexical', rfl, hending⟩ := Cursor.pull_error hpull
    cases h
    exact hending
  · rename_i c hpull
    split at h
    · cases h
    · split at h
      · rename_i hread
        cases h
        have hexcuses := (Parser.sound_expression options options.maxDepth).1.error hread
        exact (Cursor.pull_ok hpull).1.symm.trans (hexcuses lexical rfl)
      · split at h <;> cases h

/-- A stream that does not end in an error is refused with a parse error only. -/
theorem parse_of_parseTokens_error {error : SyntaxError} (hstream : stream.Ends)
    (h : parseTokens options stream = .error error) : ∃ parse, error = .parse parse := by
  cases error with
  | parse parse => exact ⟨parse, rfl⟩
  | lexical lexical =>
    obtain ⟨final, hfinal, -⟩ := hstream
    rw [ending_of_parseTokens_lexical h] at hfinal
    cases hfinal

theorem TokenStream.ends_ofTokens (tokens : List Token) : (ofTokens tokens).Ends := by
  refine ⟨endAfter tokens, rfl, ?_⟩
  unfold endAfter
  split <;> rfl

/-- **The grammar is unambiguous**: a phrase stands for one tree and needs one nesting. -/
theorem Derives.unique (h : Derives options .expression ts e n)
    (h' : Derives options .expression ts e' n') : e = e' ∧ n = n' := by
  have hself : untilEnd ts = ts := untilEnd_eq_self fun t ht => h.ne_eof ht
  obtain ⟨c, c', -, -, hterminated, -, hconsumes, hend⟩ :=
    Cursor.ofStream_consumes (TokenStream.ends_ofTokens ts)
  change Consumes c (untilEnd ts) c' at hconsumes
  rw [hself] at hconsumes
  have hlast : c'.current.type ∉ Level.expression.continuations := by rw [hend]; decide
  -- the reader within exactly the nesting of one derivation has to agree with the other one
  have key : ∀ {e e' n n'}, Derives options .expression ts e n →
      Derives options .expression ts e' n' → e = e' ∧ n' ≤ n := by
    intro e e' n n' h h'
    have hread := Parser.reads_of_derives h n c c' hterminated hconsumes hlast
    have hread' := Parser.reads_of_derives h' n c c' hterminated hconsumes hlast
    rcases hread with ⟨-, hread⟩ | ⟨hlt, -⟩
    · rcases hread' with ⟨hn, hread'⟩ | ⟨-, token, hread'⟩
      · rw [hread] at hread'
        cases hread'
        exact ⟨rfl, hn⟩
      · rw [hread] at hread'
        cases hread'
    · exact absurd hlt (Nat.lt_irrefl n)
  exact ⟨(key h h').1, Nat.le_antisymm (key h' h).2 (key h h').2⟩

/-- **The parser accepts exactly the grammar.**  A list of tokens is read as a tree if and only if
its tokens up to the first end token are a phrase of that tree with a nesting of at most the
allowed depth; no list is a phrase of two trees; and what is no such phrase is refused with a parse
error. -/
theorem parseTokens_accepts_exactly_grammar (options : ParserOptions) (tokens : List Token) :
    (∀ e, parseTokens options (.ofTokens tokens) = .ok e ↔
      ∃ n ≤ options.maxDepth, Derives options .expression (untilEnd tokens) e n) ∧
    (∀ e e' n n', Derives options .expression tokens e n →
      Derives options .expression tokens e' n' → e = e') ∧
    ((¬ ∃ e, ∃ n ≤ options.maxDepth, Derives options .expression (untilEnd tokens) e n) →
      ∃ error, parseTokens options (.ofTokens tokens) = .error (.parse error)) := by
  have hends := TokenStream.ends_ofTokens tokens
  refine ⟨fun e => ⟨fun h => derives_of_parseTokens hends h, ?_⟩, ?_, ?_⟩
  · rintro ⟨n, hn, hd⟩
    rcases parseTokens_of_derives hends hd with ⟨-, hread⟩ | ⟨hlt, -⟩
    · exact hread
    · exact absurd hn (Nat.not_le.2 hlt)
  · intro e e' n n' h h'
    exact (h.unique h').1
  · intro hnone
    cases hread : parseTokens options (.ofTokens tokens) with
    | ok e => exact absurd ⟨e, derives_of_parseTokens hends hread⟩ hnone
    | error error =>
      obtain ⟨parse, rfl⟩ := parse_of_parseTokens_error hends hread
      exact ⟨parse, rfl⟩

end

end ExprLang
