import ExprLang.Proofs.ParserCompleteness

/-!
# Readers that decide by what they have read

What a reader says depends on the tokens that it takes and on the one behind them, and on nothing
that comes later.  Where it says that the text is wrong, what it has taken is the front of a phrase.
A stream that breaks off in an error may keep it from saying anything but that error.  All of this
is kept by every way in which the parser puts readers together.

* `Yields`, `Refuses` — a reader comes to its result, or fails, in front of all streams that start
  with some tokens.
* `Verdict` — one of the two holds at a cursor, and what has been read is the front of a phrase, or
  the stream broke off.
* `DecidesAt` — the verdicts on a stream that ends, which cannot break off.
* `Verdict.token`, `Verdict.expect`, `Verdict.close`, `Verdict.bind`, `Verdict.map` — readers one
  after another.
* `Loop` — a reader in rounds, of which there are never more than tokens.
-/

namespace ExprLang

/-- Whether the reason is found out only when the token behind the one at fault has been read. -/
def ParseReason.looksAhead : ParseReason → Bool
  | .operatorNotAllowed | .conditionalNotAllowed => true
  | _ => false

/-- Something that a token of a type can hold. -/
def TokenContent.ofType (type : TokenType) : TokenContent :=
  if isLiteral : type.isLiteral = true then .literal type .null isLiteral
  else if isSign : type.isSign = true then .sign type [] isSign
  else
    match type with
    | .identifier => .identifier []
    | .qualifiedName => .qualifiedName [] []
    | _ => .eof

/-- A token of a type, whatever else it holds. -/
def Token.ofType (type : TokenType) : Token :=
  ⟨.ofType type, .origin, []⟩

theorem Token.type_ofType (type : TokenType) : (ofType type).type = type := by
  cases type <;> rfl

/-! ## Streams that end -/

namespace Cursor

variable {c c' d d' : Cursor} {ts : List Token}

/-- A cursor of a stream that ends in an end token and not in an error. -/
def Ends (c : Cursor) : Prop :=
  ∃ final, c.ending = .ok final ∧ final.type = .eof

theorem Ends.terminated (h : c.Ends) : c.Terminated := by
  obtain ⟨final, hending, hfinal⟩ := h
  intro token htoken
  rw [hending] at htoken
  cases htoken
  exact hfinal

theorem Ends.consumes (h : c.Ends) (hts : Consumes c ts c') : c'.Ends := by
  obtain ⟨final, hending, hfinal⟩ := h
  exact ⟨final, hts.ending.trans hending, hfinal⟩

/-- There is always something behind a token of a stream that ends. -/
theorem Ends.advance (h : c.Ends) : ∃ c', c.advance = .ok c' := by
  obtain ⟨final, hending, -⟩ := h
  unfold Cursor.advance
  split
  · exact ⟨c, rfl⟩
  · rw [hending]
    cases c.rest with
    | nil => exact ⟨_, rfl⟩
    | cons next rest => exact ⟨_, rfl⟩

/-- Where nothing is behind a token, the stream has broken off. -/
theorem ending_of_advance_error {error : SyntaxError} (h : c.advance = .error error) :
    ∃ lexical, error = .lexical lexical ∧ c.ending = .error lexical := by
  unfold Cursor.advance at h
  split at h
  · cases h
  · exact pull_error h

/-- A stream that breaks off has no end token that could be a wrong one. -/
theorem terminated_of_error {lexical : LexicalError} (h : c.ending = .error lexical) :
    c.Terminated := by
  intro token htoken
  rw [h] at htoken
  cases htoken

/-- Streams that agree on some tokens and on the one behind them agree on the first token. -/
theorem current_eq_of_consumes (h : Consumes c ts c') (h' : Consumes d ts d')
    (hcurrent : d'.current = c'.current) : d.current = c.current := by
  cases ts with
  | nil =>
    rw [Consumes.nil_iff] at h h'
    rw [h, h', hcurrent]
  | cons t ts => rw [(Consumes.cons_iff.1 h).1, (Consumes.cons_iff.1 h').1]

end Cursor

/-! ## Decisions -/

section

variable {α β : Type}

/-- In front of all streams that go on with these tokens and then the one, the reader takes the
tokens and comes to its result. -/
def Yields (p : Parser α) (ts : List Token) (t : Token) (a : α) : Prop :=
  ∀ c c', c.Terminated → Consumes c ts c' → c'.current = t → p c = .ok (a, c')

/-- In front of all streams that go on with these tokens and then the one, the reader fails at the
one.  There has to be something behind it if the reader looks for that. -/
def Refuses (p : Parser α) (ts : List Token) (t : Token) (reason : ParseReason) : Prop :=
  ∀ c c', c.Terminated → Consumes c ts c' → c'.current = t →
    (reason.looksAhead = true → ∃ c'', c'.advance = .ok c'') → p c = c'.fail reason

/-- The reader decides by the tokens that it has taken and the one behind them.  What it has taken
is a phrase or, unless the depth is used up, the front of one. -/
inductive DecidesAt (phrase : List Token → α → Prop) (p : Parser α) (c : Cursor) : Prop where
  | reads {ts : List Token} {c' : Cursor} {a : α} :
    Consumes c ts c' → phrase ts a → Yields p ts c'.current a → DecidesAt phrase p c
  | refuses {ts : List Token} {c' : Cursor} {reason : ParseReason} :
    Consumes c ts c' → (reason ≠ .tooDeep → ∃ us a, phrase (ts ++ us) a) →
    Refuses p ts c'.current reason → DecidesAt phrase p c

/-- A reader that decides so in front of every stream that ends. -/
def Decides (phrase : List Token → α → Prop) (p : Parser α) : Prop :=
  ∀ c, c.Ends → DecidesAt phrase p c

/-- The reader decides by what it has taken, or the stream breaks off before it can.  If it has to
look behind the token at fault, then there is something. -/
inductive Verdict (phrase : List Token → α → Prop) (p : Parser α) (c : Cursor) : Prop where
  | reads {ts : List Token} {c' : Cursor} {a : α} :
    Consumes c ts c' → phrase ts a → Yields p ts c'.current a → Verdict phrase p c
  | refuses {ts : List Token} {c' : Cursor} {reason : ParseReason} :
    Consumes c ts c' → (reason ≠ .tooDeep → ∃ us a, phrase (ts ++ us) a) →
    (reason.looksAhead = true → ∃ c'', c'.advance = .ok c'') →
    Refuses p ts c'.current reason → Verdict phrase p c
  | breaks {lexical : LexicalError} :
    c.ending = .error lexical → p c = .error (.lexical lexical) → Verdict phrase p c

/-- A reader with a verdict on every stream. -/
def Judges (phrase : List Token → α → Prop) (p : Parser α) : Prop :=
  ∀ c, c.Terminated → Verdict phrase p c

variable {phrase phrase' : List Token → α → Prop} {phrases : List Token → β → Prop}
  {p q r : Parser α} {c : Cursor} {a : α} {reason : ParseReason}

namespace Verdict

/-- A stream that ends does not break off. -/
theorem decidesAt (h : Verdict phrase p c) (hc : c.Ends) : DecidesAt phrase p c := by
  cases h with
  | reads hts ha hyields => exact .reads hts ha hyields
  | refuses hts hviable _ hrefuses => exact .refuses hts hviable hrefuses
  | breaks hending _ =>
    obtain ⟨final, hfinal, -⟩ := hc
    rw [hending] at hfinal
    cases hfinal

theorem mono (h : Verdict phrase p c) (hphrase : ∀ ts a, phrase ts a → phrase' ts a) :
    Verdict phrase' p c := by
  cases h with
  | reads hts ha hyields => exact .reads hts (hphrase _ _ ha) hyields
  | refuses hts hviable hahead hrefuses =>
    refine .refuses hts (fun hreason => ?_) hahead hrefuses
    obtain ⟨us, a, ha⟩ := hviable hreason
    exact ⟨us, a, hphrase _ _ ha⟩
  | breaks hending hbreaks => exact .breaks hending hbreaks

/-- Readers that agree wherever the current token is this one. -/
theorem congr (h : Verdict phrase p c)
    (hr : ∀ d, d.Terminated → d.current = c.current → r d = p d) : Verdict phrase r c := by
  cases h with
  | reads hts ha hyields =>
    refine .reads hts ha fun d d' hd hts' hcurrent => ?_
    rw [hr d hd (Cursor.current_eq_of_consumes hts hts' hcurrent)]
    exact hyields d d' hd hts' hcurrent
  | refuses hts hviable hahead hrefuses =>
    refine .refuses hts hviable hahead fun d d' hd hts' hcurrent hahead' => ?_
    rw [hr d hd (Cursor.current_eq_of_consumes hts hts' hcurrent)]
    exact hrefuses d d' hd hts' hcurrent hahead'
  | breaks hending hbreaks =>
    refine .breaks hending ?_
    rw [hr c (Cursor.terminated_of_error hending) rfl, hbreaks]

/-- The current token makes the reader come to its result. -/
theorem done (ha : phrase [] a)
    (hp : ∀ d, d.Terminated → d.current = c.current → p d = .ok (a, d)) : Verdict phrase p c := by
  refine .reads (.refl c) ha fun d d' hd hnil hcurrent => ?_
  rw [Consumes.nil_iff] at hnil
  subst hnil
  exact hp d hd hcurrent

/-- The current token makes the reader fail. -/
theorem stop (reason : ParseReason) (hreason : reason.looksAhead = false)
    (hviable : reason ≠ .tooDeep → ∃ us a, phrase us a)
    (hp : ∀ d, d.Terminated → d.current = c.current → p d = d.fail reason) :
    Verdict phrase p c := by
  refine .refuses (.refl c) hviable (fun hahead => ?_) fun d d' hd hnil hcurrent _ => ?_
  · rw [hreason] at hahead
    cases hahead
  · rw [Consumes.nil_iff] at hnil
    subst hnil
    exact hp d hd hcurrent

/-- The current token makes the reader fail when it has got past it. -/
theorem stopBehind (reason : ParseReason) (hreason : reason.looksAhead = true)
    (hviable : ∃ us a, phrase us a)
    (hp : ∀ d, d.Terminated → d.current = c.current →
      p d = d.advance >>= fun _ => d.fail reason) : Verdict phrase p c := by
  cases hadvance : c.advance with
  | error error =>
    obtain ⟨lexical, rfl, hending⟩ := Cursor.ending_of_advance_error hadvance
    refine .breaks hending ?_
    rw [hp c (Cursor.terminated_of_error hending) rfl, hadvance]
    rfl
  | ok c₁ =>
    refine .refuses (.refl c) (fun _ : reason ≠ .tooDeep => hviable) (fun _ => ⟨c₁, hadvance⟩)
      fun d d' hd hnil hcurrent hahead => ?_
    rw [Consumes.nil_iff] at hnil
    subst hnil
    obtain ⟨d₁, hadvance'⟩ := hahead hreason
    rw [hp d hd hcurrent, hadvance']
    rfl

/-- The current token and then another reader. -/
theorem token (hc : c.Terminated) (htype : c.current.type ≠ .eof)
    (hp : ∀ d, d.Terminated → d.current = c.current → p d = d.advance >>= q)
    (hq : ∀ c', c'.Terminated → c'.remaining < c.remaining →
      Verdict (fun ts => phrase (c.current :: ts)) q c') : Verdict phrase p c := by
  cases hadvance : c.advance with
  | error error =>
    obtain ⟨lexical, rfl, hending⟩ := Cursor.ending_of_advance_error hadvance
    refine .breaks hending ?_
    rw [hp c hc rfl, hadvance]
    rfl
  | ok c₁ =>
    have hsingle := Consumes.single htype hadvance
    have hlt := Cursor.remaining_of_advance hc htype hadvance
    -- every other stream has the same token here, and a place behind it
    have hstep : ∀ {us d d'}, d.Terminated → Consumes d (c.current :: us) d' →
        ∃ d₁, d₁.Terminated ∧ Consumes d₁ us d' ∧ p d = q d₁ := by
      intro us d d' hd hconsumes
      obtain ⟨hcurrent, hne, d₁, hadvance', hus⟩ := Consumes.cons_iff.1 hconsumes
      refine ⟨d₁, hd.consumes (.single (hcurrent ▸ htype) hadvance'), hus, ?_⟩
      rw [hp d hd hcurrent, hadvance']
      rfl
    cases hq c₁ (hc.consumes hsingle) hlt with
    | reads hts ha hyields =>
      refine .reads (hsingle.trans hts) ha fun d d' hd hconsumes hcurrent => ?_
      obtain ⟨d₁, hd₁, hus, hq⟩ := hstep hd hconsumes
      rw [hq]
      exact hyields d₁ d' hd₁ hus hcurrent
    | refuses hts hviable hahead hrefuses =>
      refine .refuses (hsingle.trans hts) hviable hahead
        fun d d' hd hconsumes hcurrent hahead' => ?_
      obtain ⟨d₁, hd₁, hus, hq⟩ := hstep hd hconsumes
      rw [hq]
      exact hrefuses d₁ d' hd₁ hus hcurrent hahead'
    | breaks hending hbreaks =>
      refine .breaks (hsingle.ending ▸ hending) ?_
      rw [hp c hc rfl, hadvance]
      exact hbreaks

/-- A token that has to be there and then another reader. -/
theorem expect (type : TokenType) (reason : ParseReason) (hreason : reason.looksAhead = false)
    (hc : c.Terminated) (htype : type ≠ .eof) (hviable : ∃ us a, phrase us a)
    (hp : ∀ d, d.Terminated → d.current = c.current → p d = d.expect type reason >>= q)
    (hq : c.current.type = type → ∀ c', c'.Terminated → c'.remaining < c.remaining →
      Verdict (fun ts => phrase (c.current :: ts)) q c') : Verdict phrase p c := by
  by_cases hcurrent : c.current.type = type
  · refine .token hc (hcurrent ▸ htype) (fun d hd heq => ?_) (hq hcurrent)
    rw [hp d hd heq, Cursor.expect, heq, if_pos hcurrent]
  · refine .stop reason hreason (fun _ => hviable) fun d hd heq => ?_
    rw [hp d hd heq, Cursor.expect, heq, if_neg hcurrent]
    rfl

/-- A token that has to be there at the end. -/
theorem close (type : TokenType) (reason : ParseReason) (hreason : reason.looksAhead = false)
    (a : α) (hc : c.Terminated) (htype : type ≠ .eof)
    (hp : ∀ d, d.Terminated → d.current = c.current → p d = (do
      let d' ← d.expect type reason
      return (a, d')))
    (hphrase : ∀ t : Token, t.type = type → phrase [t] a) : Verdict phrase p c := by
  refine .expect (q := fun d => .ok (a, d)) type reason hreason hc htype
    ⟨[.ofType type], a, hphrase _ (Token.type_ofType type)⟩ (fun d hd heq => ?_)
    fun hcurrent c' _ _ => ?_
  · rw [hp d hd heq]
    rfl
  · exact .done (hphrase _ hcurrent) fun d _ _ => rfl

/-- One reader and then another one. -/
theorem bind {p : Parser α} {q : α → Parser β} {r : Parser β} (hc : c.Terminated)
    (hp : Verdict phrase p c)
    (herror : ∀ d error, d.Terminated → d.current = c.current → p d = .error error →
      r d = .error error)
    (hok : ∀ d a d', d.Terminated → d.current = c.current → p d = .ok (a, d') → r d = q a d')
    (hcomplete : ∀ ts a, phrase ts a → ∃ us b, phrases (ts ++ us) b)
    (hq : ∀ ts a c', c'.Terminated → c'.remaining ≤ c.remaining → phrase ts a →
      Verdict (fun us => phrases (ts ++ us)) (q a) c') : Verdict phrases r c := by
  cases hp with
  | @reads ts c₁ a hts ha hyields =>
    -- a stream with the same tokens up to where the second reader stops agrees on the place between
    have hstep : ∀ {us c₂ d d'}, Consumes c₁ us c₂ → d.Terminated → Consumes d (ts ++ us) d' →
        d'.current = c₂.current →
        ∃ d₁, d₁.Terminated ∧ Consumes d₁ us d' ∧ r d = q a d₁ := by
      intro us c₂ d d' hus hd hconsumes hcurrent
      obtain ⟨d₁, hts', hus'⟩ := Consumes.append_iff.1 hconsumes
      have hmiddle := Cursor.current_eq_of_consumes hus hus' hcurrent
      refine ⟨d₁, hd.consumes hts', hus', ?_⟩
      exact hok d a d₁ hd (Cursor.current_eq_of_consumes hts hts' hmiddle)
        (hyields d d₁ hd hts' hmiddle)
    cases hq ts a c₁ (hc.consumes hts) (hts.remaining_le hc) ha with
    | reads hus hb hyields' =>
      refine .reads (hts.trans hus) hb fun d d' hd hconsumes hcurrent => ?_
      obtain ⟨d₁, hd₁, hus', hrun⟩ := hstep hus hd hconsumes hcurrent
      rw [hrun]
      exact hyields' d₁ d' hd₁ hus' hcurrent
    | @refuses us c₂ reason hus hviable hahead hrefuses =>
      refine .refuses (hts.trans hus) (fun hreason : reason ≠ .tooDeep => ?_) hahead
        fun d d' hd hconsumes hcurrent hahead' => ?_
      · obtain ⟨vs, b, hb⟩ := hviable hreason
        exact ⟨vs, b, by rwa [List.append_assoc]⟩
      · obtain ⟨d₁, hd₁, hus', hrun⟩ := hstep hus hd hconsumes hcurrent
        rw [hrun]
        exact hrefuses d₁ d' hd₁ hus' hcurrent hahead'
    | breaks hending hbreaks =>
      refine .breaks (hts.ending ▸ hending) ?_
      rw [hok c a c₁ hc rfl (hyields c c₁ hc hts rfl), hbreaks]
  | @refuses ts c₁ reason hts hviable hahead hrefuses =>
    refine .refuses hts (fun hreason : reason ≠ .tooDeep => ?_) hahead
      fun d d' hd hts' hcurrent hahead' => ?_
    · obtain ⟨us, a, ha⟩ := hviable hreason
      obtain ⟨vs, b, hb⟩ := hcomplete _ a ha
      exact ⟨us ++ vs, b, by rwa [← List.append_assoc]⟩
    · exact herror d _ hd (Cursor.current_eq_of_consumes hts hts' hcurrent)
        (hrefuses d d' hd hts' hcurrent hahead')
  | breaks hending hbreaks =>
    exact .breaks hending (herror c _ hc rfl hbreaks)

/-- A reader whose result is put into another one. -/
theorem map {p : Parser α} {r : Parser β} {f : α → β} (hc : c.Terminated) (hp : Verdict phrase p c)
    (herror : ∀ d error, d.Terminated → d.current = c.current → p d = .error error →
      r d = .error error)
    (hok : ∀ d a d', d.Terminated → d.current = c.current → p d = .ok (a, d') →
      r d = .ok (f a, d'))
    (hf : ∀ ts a, phrase ts a → phrases ts (f a)) : Verdict phrases r c := by
  have hphrases : ∀ ts a, phrase ts a → phrases (ts ++ []) (f a) := by
    intro ts a ha
    rw [List.append_nil]
    exact hf ts a ha
  refine .bind hc hp herror hok (fun ts a ha => ⟨[], f a, hphrases ts a ha⟩) ?_
  exact fun ts a c' _ _ ha => .done (hphrases ts a ha) fun d _ _ => rfl

end Verdict

end

/-! ## Loops -/

theorem Cursor.type_eq_of_remaining {c : Cursor} (h : c.remaining ≤ 0) : c.current.type = .eof := by
  by_cases htype : c.current.type = .eof
  · exact htype
  · rw [remaining_pos htype] at h
    omega

theorem Consumes.remaining_lt {c c' : Cursor} {t : Token} {ts : List Token}
    (h : Consumes c (t :: ts) c') (hc : c.Terminated) : c'.remaining < c.remaining := by
  obtain ⟨rfl, htype, c₁, hadvance, hts⟩ := Consumes.cons_iff.1 h
  have hlt := Cursor.remaining_of_advance hc htype hadvance
  have hle := hts.remaining_le (hc.consumes (.single htype hadvance))
  omega

/-- Readers that agree on shorter streams agree behind something that is read first. -/
theorem Consumes.bind_congr {α β : Type} {phrase : List Token → α → Prop} {p : Parser α}
    {q q' : α → Parser β} {c c' : Cursor} {t : Token} {ts : List Token} (hp : ReadsOnly phrase p)
    (hc : c.Terminated) (hts : Consumes c (t :: ts) c')
    (hsame : ∀ a d, d.Terminated → d.remaining < c.remaining → q a d = q' a d) :
    (p c' >>= fun r => q r.1 r.2) = (p c' >>= fun r => q' r.1 r.2) := by
  cases hread : p c' with
  | error error => rfl
  | ok result =>
    obtain ⟨us, hus, -⟩ := hp.ok hread
    have hlt := hts.remaining_lt hc
    have hle := hus.remaining_le (hc.consumes hts)
    exact hsame _ _ ((hc.consumes hts).consumes hus) (by omega)

/-- A reader that goes through a limited number of rounds, with what has been read up to now.  The
body is one round, given a reader for those that follow, which it uses further on only. -/
structure Loop {α σ : Type} (tail : Nat → σ → Parser α) (body : (σ → Parser α) → σ → Parser α) :
    Prop where
  succ : ∀ k s c, tail (k + 1) s c = body (tail k) s c
  ended : ∀ k f s c, c.current.type = .eof → tail k s c = body f s c
  congr : ∀ f g s c, c.Terminated →
    (∀ s' d, d.Terminated → d.remaining < c.remaining → f s' d = g s' d) → body f s c = body g s c

namespace Loop

variable {α σ : Type} {tail : Nat → σ → Parser α} {body : (σ → Parser α) → σ → Parser α}
  {c : Cursor}

/-- More rounds than tokens make no difference. -/
theorem tail_congr (h : Loop tail body) {k k' : Nat} {s : σ} (hc : c.Terminated)
    (hk : c.remaining ≤ k) (hk' : c.remaining ≤ k') : tail k s c = tail k' s c := by
  induction k generalizing k' s c with
  | zero =>
    have hend := Cursor.type_eq_of_remaining hk
    rw [h.ended 0 (tail 0) s c hend, h.ended k' (tail 0) s c hend]
  | succ k ih =>
    cases k' with
    | zero =>
      have hend := Cursor.type_eq_of_remaining hk'
      rw [h.ended 0 (tail 0) s c hend, h.ended (k + 1) (tail 0) s c hend]
    | succ k' =>
      rw [h.succ, h.succ]
      exact h.congr _ _ s c hc fun s' d hd hlt => ih hd (by omega) (by omega)

/-- With as many rounds as tokens, the loop is one round and then the loop. -/
theorem unroll (h : Loop tail body) (hc : c.Terminated) (s : σ) :
    tail c.remaining s c = body (fun s' d => tail d.remaining s' d) s c := by
  cases hrounds : c.remaining with
  | zero => exact h.ended 0 _ s c (Cursor.type_eq_of_remaining (Nat.le_of_eq hrounds))
  | succ k =>
    rw [h.succ]
    exact h.congr _ _ s c hc fun s' d hd hlt => h.tail_congr hd (by omega) (Nat.le_refl _)

end Loop

end ExprLang
