import ExprLang.Proofs.ParserSoundness

/-!
# The parser reads every phrase of the grammar

A phrase is read as a whole, and as the tree that it stands for, if the token behind it could not
make it any longer.  The nesting of a derivation is exact: with less depth than that the reader
says that the text is too deep, and with as much or more it succeeds.

* `Level.continuations` — the tokens that a reader of a level would go on with.
* `Resumes` — the invariant of the induction over a derivation.  On levels with a loop the phrase
  may be followed by a token that the loop goes on with; the reader is then in the middle of it.
* `reads_of_derives` — the reader of a level on a phrase of that level.
-/

namespace ExprLang

/-- The tokens that could make a phrase of the level longer, or that would be an error behind it. -/
def Level.continuations : Level → List TokenType
  | .primary => [.leftParen]
  | .access | .operand => [.dot, .leftBracket, .leftParen]
  | .product => [.multiply, .divide, .modulo, .dot, .leftBracket, .leftParen]
  | .sum =>
    [.plus, .minus, .join, .multiply, .divide, .modulo, .dot, .leftBracket, .leftParen]
  | .relation =>
    [.lt, .lte, .gt, .gte, .plus, .minus, .join, .multiply, .divide, .modulo, .dot, .leftBracket,
      .leftParen]
  | .equality =>
    [.eq, .neq, .wildcard, .lt, .lte, .gt, .gte, .plus, .minus, .join, .multiply, .divide, .modulo,
      .dot, .leftBracket, .leftParen]
  | .conjunction =>
    [.and, .eq, .neq, .wildcard, .lt, .lte, .gt, .gte, .plus, .minus, .join, .multiply, .divide,
      .modulo, .dot, .leftBracket, .leftParen]
  | .disjunction =>
    [.or, .and, .eq, .neq, .wildcard, .lt, .lte, .gt, .gte, .plus, .minus, .join, .multiply,
      .divide, .modulo, .dot, .leftBracket, .leftParen]
  | .expression =>
    [.question, .or, .and, .eq, .neq, .wildcard, .lt, .lte, .gt, .gte, .plus, .minus, .join,
      .multiply, .divide, .modulo, .dot, .leftBracket, .leftParen]

namespace Level

theorem continuations_tighter {level next : Level} (h : level.tighter? = some next) :
    next.continuations ⊆ level.continuations := by
  cases level <;> cases h <;> decide

theorem operator_mem_continuations {level : Level} {type : TokenType} {operator : BinaryOperator}
    (h : (type, operator) ∈ level.operators) : type ∈ level.continuations := by
  have : ∀ entry ∈ level.operators, entry.1 ∈ level.continuations := by
    cases level <;> decide
  exact this _ h

theorem operator_not_mem_tighter {level next : Level} {type : TokenType}
    {operator : BinaryOperator} (hnext : level.tighter? = some next)
    (h : (type, operator) ∈ level.operators) : type ∉ next.continuations := by
  have : ∀ entry ∈ level.operators, entry.1 ∉ next.continuations := by
    cases level <;> cases hnext <;> decide
  exact this _ h

/-- Whether the operators of the level are read in a loop. -/
def chains : Level → Bool
  | .disjunction | .conjunction | .relation | .sum | .product => true
  | _ => false

/-- The tokens that must not stand behind a phrase for its reader to get to the end of it.  Where
the reader then is in a loop, the tokens that the loop goes on with are not among them. -/
def barriers (level : Level) : List TokenType :=
  if level.chains || level = .access then
    match level.tighter? with
    | some next => next.continuations
    | none => []
  else
    level.continuations

theorem barriers_subset (level : Level) : level.barriers ⊆ level.continuations := by
  cases level <;> decide

end Level

/-! ## Streams that end -/

namespace Cursor

variable {c c' : Cursor}

/-- A cursor of a stream whose last token is an end token. -/
def Terminated (c : Cursor) : Prop :=
  ∀ token, c.ending = .ok token → token.type = .eof

/-- The tokens up to the end. -/
def upcoming (c : Cursor) : List Token :=
  (c.current :: c.rest).takeWhile (·.type ≠ .eof)

theorem Terminated.consumes {ts : List Token} (h : c.Terminated) (hts : Consumes c ts c') :
    c'.Terminated := by
  intro token htoken
  exact h token (hts.ending ▸ htoken)

theorem remaining_pos (h : c.current.type ≠ .eof) : c.remaining = c.rest.length + 1 := by
  simp [remaining, isAtEnd, h]

/-- Behind a token that is not the end, the cursor of a stream that ends well. -/
theorem rest_of_advance (hc : c.Terminated) (htype : c.current.type ≠ .eof)
    (h : c.advance = .ok c') :
    c.rest = c'.current :: c'.rest ∨ c.rest = [] ∧ c'.rest = [] ∧ c'.current.type = .eof := by
  simp only [advance, isAtEnd, htype, decide_false, Bool.false_eq_true, if_false] at h
  unfold pull at h
  split at h
  · rename_i hrest
    cases h
    exact .inl hrest
  · rename_i hrest hending
    cases h
    exact .inr ⟨hrest, rfl, hc _ hending⟩
  · cases h

theorem remaining_of_advance (hc : c.Terminated) (htype : c.current.type ≠ .eof)
    (h : c.advance = .ok c') : c'.remaining < c.remaining := by
  rw [remaining_pos htype]
  rcases rest_of_advance hc htype h with hrest | ⟨_, _, heof⟩
  · rw [hrest]
    unfold remaining
    split <;> simp
  · simp [remaining, isAtEnd, heof]

theorem upcoming_of_advance (hc : c.Terminated) (htype : c.current.type ≠ .eof)
    (h : c.advance = .ok c') : c.upcoming = c.current :: c'.upcoming := by
  unfold upcoming
  rw [List.takeWhile_cons_of_pos (by simpa using htype)]
  rcases rest_of_advance hc htype h with hrest | ⟨hrest, hrest', heof⟩
  · rw [hrest]
  · rw [hrest, hrest']
    simp [heof]

end Cursor

namespace Consumes

variable {c c' : Cursor} {ts : List Token}

theorem remaining_le (h : Consumes c ts c') (hc : c.Terminated) : c'.remaining ≤ c.remaining := by
  induction h with
  | refl => exact Nat.le_refl _
  | step htype hadvance _ ih =>
    have hlt := Cursor.remaining_of_advance hc htype hadvance
    have hle := ih (hc.consumes (.single htype hadvance))
    omega

theorem upcoming (h : Consumes c ts c') (hc : c.Terminated) :
    c.upcoming = ts ++ c'.upcoming := by
  induction h with
  | refl => rfl
  | step htype hadvance _ ih =>
    rw [Cursor.upcoming_of_advance hc htype hadvance, ih (hc.consumes (.single htype hadvance))]
    rfl

end Consumes

namespace Parser

variable {options : ParserOptions} {depth : Nat} {level next : Level} {c c' : Cursor}

/-! ## The readers of the levels -/

/-- The reader of a level, with the depth that is left inside the expression it stands in. -/
def reader (options : ParserOptions) (depth : Nat) : Level → Parser Expr
  | .expression => expression options depth
  | .disjunction => chain options orOperator? conjunction
  | .conjunction => conjunction
  | .equality => equality
  | .relation => relation
  | .sum => sum
  | .product => product
  | .operand => operand
  | .access => access (expression options depth)
  | .primary => primary (expression options depth)
where
  operand := unary (innerOperand options depth) (expression options depth)
  product := chain options multiplicativeOperator? operand
  sum := chain options additiveOperator? product
  relation := chain options relationalOperator? sum
  equality := Parser.equality options relation
  conjunction := chain options andOperator? equality

theorem reader_chain (hchains : level.chains = true) (hnext : level.tighter? = some next) :
    reader options depth level =
      chain options (operatorOf? level) (reader options depth next) := by
  cases level <;> cases hnext <;> first | rfl | cases hchains

theorem reader_expression_succ :
    reader options (depth + 1) .expression =
      conditional options (expression options depth) (reader options depth .operand) := by
  funext c
  show expression options (depth + 1) c = _
  rw [expression]
  rfl

theorem innerOperand_succ :
    innerOperand options (depth + 1) = reader options depth .operand := by
  funext c
  rw [innerOperand]
  rfl

/-- A reader that ran out of depth. -/
def TooDeep {α : Type} (r : Except SyntaxError α) : Prop :=
  ∃ token, r = .error (.parse ⟨.tooDeep, token⟩)

/-- The rest of a reading of which `e` has been read, on levels with a loop after at most `steps`
further rounds of it. -/
def resume (options : ParserOptions) (depth : Nat) (level : Level) (steps : Nat) (e : Expr) :
    Parser Expr := fun c =>
  match level.chains, level.tighter? with
  | true, some next => chainTail options (operatorOf? level) (reader options depth next) steps e c
  | _, _ => if level = .access then accessTail (expression options depth) steps e c else .ok (e, c)

/-- A reading that needs a nesting of `n` comes to its result within that depth, and otherwise stops
because of the depth. -/
def Settles {α : Type} (n depth : Nat) (r : Except SyntaxError α) (a : α) : Prop :=
  (n ≤ depth ∧ r = .ok a) ∨ (depth < n ∧ TooDeep r)

/-- What the reader of a level does on a phrase of it that a token stands behind which cannot
continue the phrase. -/
def Reads (options : ParserOptions) (level : Level) (ts : List Token) (e : Expr) (n : Nat) :
    Prop :=
  ∀ (depth : Nat) (c c' : Cursor), c.Terminated → Consumes c ts c' →
    c'.current.type ∉ level.continuations →
    Settles n depth (reader options depth level c) (e, c')

/-- What the reader of a level does on a phrase of it that its loop may go on behind. -/
def Resumes (options : ParserOptions) (level : Level) (ts : List Token) (e : Expr) (n : Nat) :
    Prop :=
  ∀ (depth : Nat) (c c' : Cursor), c.Terminated → Consumes c ts c' →
    c'.current.type ∉ level.barriers →
    (n ≤ depth ∧ ∃ steps, c'.remaining ≤ steps ∧
      reader options depth level c = resume options depth level steps e c') ∨
    (depth < n ∧ TooDeep (reader options depth level c))

theorem chainTail_done {operator? : TokenType → Option BinaryOperator} {operand : Parser Expr}
    {steps : Nat} {e : Expr} (h : operator? c.current.type = none) :
    chainTail options operator? operand steps e c = .ok (e, c) := by
  cases steps with
  | zero => rfl
  | succ steps => rw [chainTail, h]

theorem accessTail_done {nested : Parser Expr} {steps : Nat} {e : Expr}
    (h : c.current.type ∉ Level.access.continuations) :
    accessTail nested steps e c = .ok (e, c) := by
  cases steps with
  | zero => rfl
  | succ steps =>
    rw [accessTail]
    split <;> simp_all [Level.continuations]

theorem operatorOf?_eq_none (h : c.current.type ∉ level.continuations) :
    operatorOf? level c.current.type = none := by
  cases hoperator : operatorOf? level c.current.type with
  | none => rfl
  | some operator =>
    exact absurd (Level.operator_mem_continuations (operatorOf?_eq_some_iff.1 hoperator)) h

/-- A reading that is over comes to its result, however many rounds are left. -/
theorem resume_done {steps : Nat} {e : Expr} (h : c.current.type ∉ level.continuations) :
    resume options depth level steps e c = .ok (e, c) := by
  unfold resume
  split
  · exact chainTail_done (operatorOf?_eq_none h)
  · split
    · rename_i hlevel
      subst hlevel
      exact accessTail_done h
    · rfl

theorem resume_chain {steps : Nat} {e : Expr} (hchains : level.chains = true)
    (hnext : level.tighter? = some next) :
    resume options depth level steps e c =
      chainTail options (operatorOf? level) (reader options depth next) steps e c := by
  unfold resume
  rw [hchains, hnext]

theorem resume_access {steps : Nat} {e : Expr} :
    resume options depth .access steps e c =
      accessTail (expression options depth) steps e c :=
  rfl

theorem barriers_chain (hchains : level.chains = true) (hnext : level.tighter? = some next) :
    level.barriers = next.continuations := by
  simp [Level.barriers, hchains, hnext]

section

variable {ts us : List Token} {e : Expr} {n : Nat}

theorem Resumes.reads (h : Resumes options level ts e n) : Reads options level ts e n := by
  intro depth c c' hc hts hend
  have hbarrier : c'.current.type ∉ level.barriers := fun hmem => hend (level.barriers_subset hmem)
  rcases h depth c c' hc hts hbarrier with ⟨hn, steps, -, hread⟩ | hdeep
  · exact .inl ⟨hn, by rw [hread, resume_done hend]⟩
  · exact .inr hdeep

/-- On levels without a loop there is nothing between the two. -/
theorem Reads.resumes (hchains : level.chains = false) (haccess : level ≠ .access)
    (h : Reads options level ts e n) : Resumes options level ts e n := by
  intro depth c c' hc hts hend
  have hbarriers : level.barriers = level.continuations := by
    simp [Level.barriers, hchains, haccess]
  rcases h depth c c' hc hts (hbarriers ▸ hend) with ⟨hn, hread⟩ | hdeep
  · refine .inl ⟨hn, c'.remaining, Nat.le_refl _, ?_⟩
    rw [hread]
    unfold resume
    rw [hchains]
    simp [haccess]
  · exact .inr hdeep

theorem Reads.lower (h : Reads options next ts e n) (level : Level) (depth : Nat)
    (hnext : level.tighter? = some next) (hc : c.Terminated) (hts : Consumes c ts c')
    (hend : c'.current.type ∉ level.continuations) :
    Settles n depth (reader options depth next c) (e, c') :=
  h depth c c' hc hts fun hmem => hend (Level.continuations_tighter hnext hmem)

/-! ## Chains of operators -/

variable {sign : Token} {operator : BinaryOperator} {l r : Expr} {m : Nat}

theorem takeOperator_complete (hadvance : c.advance = .ok c')
    (hpermitted : Permitted options operator) : takeOperator options operator c = .ok c' := by
  unfold takeOperator
  rw [hadvance]
  simp [allowsOperator_iff.2 hpermitted]

theorem resumes_chain_lift (hchains : level.chains = true) (hnext : level.tighter? = some next)
    (h : Reads options next ts e n) : Resumes options level ts e n := by
  intro depth c c' hc hts hend
  rw [barriers_chain hchains hnext] at hend
  rw [reader_chain hchains hnext, chain]
  rcases h depth c c' hc hts hend with ⟨hn, hread⟩ | ⟨hn, token, hread⟩
  · refine .inl ⟨hn, c'.remaining, Nat.le_refl _, ?_⟩
    rw [resume_chain hchains hnext, hread]
    dsimp only
    split
    · rfl
    · rename_i hnone
      rw [chainTail_done (by simpa using hnone)]
  · exact .inr ⟨hn, token, by rw [hread]⟩

theorem resumes_chain_binary (hchains : level.chains = true)
    (hnext : level.tighter? = some next) (hsign : (sign.type, operator) ∈ level.operators)
    (hpermitted : Permitted options operator) (hleft : Resumes options level ts l m)
    (hright : Reads options next us r n) :
    Resumes options level (ts ++ sign :: us) (.binary operator l r) (max m n) := by
  intro depth c c' hc hconsumes hend
  obtain ⟨c₁, hts, hrest⟩ := Consumes.append_iff.1 hconsumes
  obtain ⟨rfl, htype, c₂, hadvance, hus⟩ := Consumes.cons_iff.1 hrest
  have hc₁ := hc.consumes hts
  have hc₂ := hc₁.consumes (.single htype hadvance)
  rw [barriers_chain hchains hnext] at hend
  have hbarrier : c₁.current.type ∉ level.barriers := by
    rw [barriers_chain hchains hnext]
    exact Level.operator_not_mem_tighter hnext hsign
  rcases hleft depth c c₁ hc hts hbarrier with ⟨hm, steps, hsteps, hread⟩ | ⟨hm, htoken⟩
  · -- one round of the loop takes the operator and its right operand
    have hlt := Cursor.remaining_of_advance hc₁ htype hadvance
    have hle := hus.remaining_le hc₂
    obtain ⟨steps, rfl⟩ : ∃ k, steps = k + 1 := ⟨steps - 1, by omega⟩
    rw [hread, resume_chain hchains hnext, chainTail, operatorOf?_eq_some_iff.2 hsign]
    simp only [takeOperator_complete hadvance hpermitted]
    rcases hright depth c₂ c' hc₂ hus hend with ⟨hn, hread⟩ | ⟨hn, token, hread⟩
    · refine .inl ⟨by omega, steps, by omega, ?_⟩
      rw [hread, resume_chain hchains hnext]
    · exact .inr ⟨by omega, token, by rw [hread]⟩
  · exact .inr ⟨by omega, htoken⟩

/-! ## Equality -/

theorem reads_equality_lift (h : Reads options .relation ts e n) :
    Reads options .equality ts e n := by
  intro depth c c' hc hts hend
  show Settles n depth (equality options (reader options depth .relation) c) (e, c')
  rw [equality]
  rcases h.lower .equality depth rfl hc hts hend with
    ⟨hn, hread⟩ | ⟨hn, token, hread⟩
  · have hnone : equalityOperator? c'.current.type = none := operatorOf?_eq_none hend
    exact .inl ⟨hn, by simp only [hread, hnone]⟩
  · exact .inr ⟨hn, token, by rw [hread]⟩

theorem reads_equality_binary (hsign : (sign.type, operator) ∈ Level.equality.operators)
    (hpermitted : Permitted options operator) (hleft : Reads options .relation ts l m)
    (hright : Reads options .relation us r n) :
    Reads options .equality (ts ++ sign :: us) (.binary operator l r) (max m n) := by
  intro depth c c' hc hconsumes hend
  obtain ⟨c₁, hts, hrest⟩ := Consumes.append_iff.1 hconsumes
  obtain ⟨rfl, htype, c₂, hadvance, hus⟩ := Consumes.cons_iff.1 hrest
  have hc₂ := (hc.consumes hts).consumes (.single htype hadvance)
  have hoperator : equalityOperator? c₁.current.type = some operator :=
    equalityOperator?_eq_some_iff.2 hsign
  have hlast : equalityOperator? c'.current.type = none := operatorOf?_eq_none hend
  show Settles _ depth (equality options (reader options depth .relation) c) _
  rw [equality]
  rcases hleft depth c c₁ hc hts (Level.operator_not_mem_tighter rfl hsign) with
    ⟨hm, hread⟩ | ⟨hm, token, hread⟩
  · simp only [hread, hoperator, takeOperator_complete hadvance hpermitted]
    rcases hright.lower .equality depth rfl hc₂ hus hend with
      ⟨hn, hread⟩ | ⟨hn, token, hread⟩
    · exact .inl ⟨by omega, by simp [hread, hlast]⟩
    · exact .inr ⟨by omega, token, by rw [hread]⟩
  · exact .inr ⟨by omega, token, by rw [hread]⟩

/-! ## Arguments -/

theorem deepest_cons (p : Phrase) (ps : List Phrase) :
    deepest ((p :: ps).map Phrase.nesting) =
      max p.nesting (deepest (ps.map Phrase.nesting)) :=
  rfl

/-- Behind an argument stands the comma in front of the next one, or the closing parenthesis. -/
theorem not_mem_continuations_of_arguments {tail : List Token} (htail : Consumes c tail c')
    (hhead : tail ≠ [] → c.current.type = .comma) (htype : c'.current.type = .rightParen) :
    c.current.type ∉ Level.expression.continuations := by
  cases tail with
  | nil => rw [Consumes.nil_iff.1 htail, htype]; decide
  | cons t tail => rw [hhead (by simp)]; decide

theorem argumentsTail_complete {p : Phrase} {ps : List Phrase} {body : List Token}
    (hseparated : Separated ((p :: ps).map Phrase.tokens) body)
    (h : ∀ q ∈ ps, Reads options .expression q.tokens q.tree q.nesting) :
    ∃ tail, body = p.tokens ++ tail ∧ ∀ (depth steps : Nat) (c c' : Cursor), c.Terminated →
      Consumes c tail c' → c'.current.type = .rightParen → c.remaining ≤ steps →
      (tail ≠ [] → c.current.type = .comma) ∧
        Settles (deepest (ps.map Phrase.nesting)) depth
          (argumentsTail (expression options depth) steps c) (ps.map Phrase.tree, c') := by
  induction ps generalizing p body with
  | nil =>
    cases hseparated
    refine ⟨[], by simp, fun depth steps c c' _ hc' htype _ => ⟨by simp, ?_⟩⟩
    rw [Consumes.nil_iff] at hc'
    subst hc'
    refine .inl ⟨Nat.zero_le _, ?_⟩
    cases steps with
    | zero => rfl
    | succ steps => simp [argumentsTail, htype]
  | cons q ps ih =>
    cases hseparated with
    | @cons _ _ body _ comma hcomma hseparated =>
      obtain ⟨tail, rfl, htail⟩ := ih hseparated fun r hr => h r (by simp [hr])
      refine ⟨comma :: (q.tokens ++ tail), rfl, ?_⟩
      intro depth steps c c' hc hconsumes htype hsteps
      obtain ⟨rfl, hne, c₁, hadvance, hrest⟩ := Consumes.cons_iff.1 hconsumes
      obtain ⟨c₂, hq, hrest⟩ := Consumes.append_iff.1 hrest
      have hc₁ := hc.consumes (.single hne hadvance)
      have hlt := Cursor.remaining_of_advance hc hne hadvance
      have hle := hq.remaining_le hc₁
      obtain ⟨steps, rfl⟩ : ∃ k, steps = k + 1 := ⟨steps - 1, by omega⟩
      obtain ⟨hhead, hothers⟩ := htail depth steps c₂ c' (hc₁.consumes hq) hrest htype (by omega)
      refine ⟨fun _ => hcomma, ?_⟩
      rw [deepest_cons, argumentsTail, if_pos hcomma, hadvance]
      have hfirst := h q (by simp) depth c₁ c₂ hc₁ hq
        (not_mem_continuations_of_arguments hrest hhead htype)
      change Settles _ depth (expression options depth c₁) _ at hfirst
      rcases hfirst with ⟨hn, hread⟩ | ⟨hn, token, hread⟩
      · simp only [hread]
        rcases hothers with ⟨hm, hread⟩ | ⟨hm, token, hread⟩
        · exact .inl ⟨by omega, by rw [hread]; rfl⟩
        · exact .inr ⟨by omega, token, by rw [hread]⟩
      · exact .inr ⟨by omega, token, by simp only [hread]⟩

theorem arguments_complete {ps : List Phrase} {body : List Token}
    (hseparated : Separated (ps.map Phrase.tokens) body)
    (hderives : ∀ p ∈ ps, Derives options .expression p.tokens p.tree p.nesting)
    (h : ∀ p ∈ ps, Reads options .expression p.tokens p.tree p.nesting) (hc : c.Terminated)
    (hbody : Consumes c body c') (htype : c'.current.type = .rightParen) (depth : Nat) :
    Settles (deepest (ps.map Phrase.nesting)) depth (arguments (expression options depth) c)
      (ps.map Phrase.tree, c') := by
  cases ps with
  | nil =>
    cases hseparated
    rw [Consumes.nil_iff] at hbody
    subst hbody
    exact .inl ⟨Nat.zero_le _, by simp [arguments, htype]⟩
  | cons p ps =>
    obtain ⟨tail, rfl, htail⟩ := argumentsTail_complete hseparated fun q hq => h q (by simp [hq])
    obtain ⟨c₁, hp, hrest⟩ := Consumes.append_iff.1 hbody
    obtain ⟨hhead, hothers⟩ :=
      htail depth c₁.remaining c₁ c' (hc.consumes hp) hrest htype (Nat.le_refl _)
    -- an argument does not start with the parenthesis that would close an empty list
    have hne : c.current.type ≠ .rightParen := by
      obtain ⟨t, us, htokens, ht⟩ := (hderives p (by simp)).starts
      rw [htokens] at hp
      rw [(Consumes.cons_iff.1 hp).1]
      intro heq
      rw [heq] at ht
      exact absurd ht (by decide)
    rw [deepest_cons, arguments, if_neg hne]
    have hfirst := h p (by simp) depth c c₁ hc hp
      (not_mem_continuations_of_arguments hrest hhead htype)
    change Settles _ depth (expression options depth c) _ at hfirst
    rcases hfirst with ⟨hn, hread⟩ | ⟨hn, token, hread⟩
    · simp only [hread]
      rcases hothers with ⟨hm, hread⟩ | ⟨hm, token, hread⟩
      · exact .inl ⟨by omega, by rw [hread]; rfl⟩
      · exact .inr ⟨by omega, token, by rw [hread]⟩
    · exact .inr ⟨by omega, token, by simp only [hread]⟩

/-! ## Primary expressions -/

theorem expect_complete {type : TokenType} {reason : ParseReason} (htype : c.current.type = type)
    (hadvance : c.advance = .ok c') : c.expect type reason = .ok c' := by
  rw [Cursor.expect, if_pos htype, hadvance]

theorem reads_literal {token : Token} {type : TokenType} {value : Value}
    {isLiteral : type.isLiteral = true} (hcontent : token.content = .literal type value isLiteral) :
    Reads options .primary [token] (.literal value) 0 := by
  intro depth c c' _ hconsumes _
  obtain ⟨rfl, _, c₁, hadvance, hnil⟩ := Consumes.cons_iff.1 hconsumes
  rw [Consumes.nil_iff] at hnil
  subst hnil
  show Settles 0 depth (primary (expression options depth) c) _
  rw [primary, hcontent, hadvance]
  exact .inl ⟨Nat.zero_le _, rfl⟩

theorem reads_identifier {token : Token} {name : Text}
    (hcontent : token.content = .identifier name) :
    Reads options .primary [token] (.identifier name) 0 := by
  intro depth c c' _ hconsumes hend
  obtain ⟨rfl, _, c₁, hadvance, hnil⟩ := Consumes.cons_iff.1 hconsumes
  rw [Consumes.nil_iff] at hnil
  subst hnil
  show Settles 0 depth (primary (expression options depth) c) _
  have hparen : c₁.current.type ≠ .leftParen := by
    simpa [Level.continuations] using hend
  refine .inl ⟨Nat.zero_le _, ?_⟩
  simp [primary, hcontent, hadvance, named, hparen]

theorem call_complete {left right : Token} (qualifier : Option Text) (function : Text)
    {body : List Token} {ps : List Phrase} (hleft : left.type = .leftParen)
    (hright : right.type = .rightParen) (hseparated : Separated (ps.map Phrase.tokens) body)
    (hderives : ∀ p ∈ ps, Derives options .expression p.tokens p.tree p.nesting)
    (h : ∀ p ∈ ps, Reads options .expression p.tokens p.tree p.nesting) (hc : c.Terminated)
    (hconsumes : Consumes c (left :: (body ++ [right])) c') (depth : Nat) :
    Settles (deepest (ps.map Phrase.nesting)) depth
      (call (expression options depth) qualifier function c)
      (.call qualifier function (ps.map Phrase.tree), c') := by
  obtain ⟨rfl, hne, c₁, hadvance, hrest⟩ := Consumes.cons_iff.1 hconsumes
  obtain ⟨c₂, hbody, hrest⟩ := Consumes.append_iff.1 hrest
  obtain ⟨rfl, _, c₃, hadvance', hnil⟩ := Consumes.cons_iff.1 hrest
  rw [Consumes.nil_iff] at hnil
  subst hnil
  have hc₁ := hc.consumes (.single hne hadvance)
  rw [call, expect_complete hleft hadvance]
  rcases arguments_complete hseparated hderives h hc₁ hbody hright depth with
    ⟨hn, hread⟩ | ⟨hn, token, hread⟩
  · exact .inl ⟨hn, by simp only [hread, expect_complete hright hadvance']⟩
  · exact .inr ⟨hn, token, by simp only [hread]⟩

theorem reads_call {name left right : Token} {qualifier : Option Text} {function : Text}
    {body : List Token} {ps : List Phrase} (hname : Callee name qualifier function)
    (hleft : left.type = .leftParen) (hright : right.type = .rightParen)
    (hseparated : Separated (ps.map Phrase.tokens) body)
    (hderives : ∀ p ∈ ps, Derives options .expression p.tokens p.tree p.nesting)
    (h : ∀ p ∈ ps, Reads options .expression p.tokens p.tree p.nesting) :
    Reads options .primary (name :: left :: (body ++ [right]))
      (.call qualifier function (ps.map Phrase.tree)) (deepest (ps.map Phrase.nesting)) := by
  intro depth c c' hc hconsumes _
  obtain ⟨rfl, hne, c₁, hadvance, hrest⟩ := Consumes.cons_iff.1 hconsumes
  have hcall := call_complete qualifier function hleft hright hseparated hderives h
    (hc.consumes (.single hne hadvance)) hrest depth
  show Settles _ depth (primary (expression options depth) c) _
  cases hname with
  | simple hcontent =>
    have hparen : c₁.current.type = .leftParen := by
      rw [(Consumes.cons_iff.1 hrest).1, hleft]
    simpa [primary, hcontent, hadvance, named, hparen] using hcall
  | qualified hcontent => simpa [primary, hcontent, hadvance] using hcall

theorem reads_group {left right : Token} (hleft : left.type = .leftParen)
    (hright : right.type = .rightParen) (h : Reads options .expression ts e n) :
    Reads options .primary (left :: (ts ++ [right])) e n := by
  intro depth c c' hc hconsumes _
  obtain ⟨rfl, hne, c₁, hadvance, hrest⟩ := Consumes.cons_iff.1 hconsumes
  obtain ⟨c₂, hts, hrest⟩ := Consumes.append_iff.1 hrest
  obtain ⟨rfl, _, c₃, hadvance', hnil⟩ := Consumes.cons_iff.1 hrest
  rw [Consumes.nil_iff] at hnil
  subst hnil
  have hinner := h depth c₁ c₂ (hc.consumes (.single hne hadvance)) hts (by rw [hright]; decide)
  change Settles _ depth (expression options depth c₁) _ at hinner
  show Settles n depth (primary (expression options depth) c) _
  obtain ⟨text, hcontent⟩ := TokenContent.exists_sign hleft rfl
  simp only [primary, hcontent, hadvance, group]
  rcases hinner with ⟨hn, hread⟩ | ⟨hn, token, hread⟩
  · exact .inl ⟨hn, by simp only [hread, expect_complete hright hadvance']⟩
  · exact .inr ⟨hn, token, by simp only [hread]⟩

/-! ## Members and indices -/

theorem resumes_access_lift (h : Reads options .primary ts e n) :
    Resumes options .access ts e n := by
  intro depth c c' hc hts hend
  show _ ∨ (depth < n ∧ TooDeep (access (expression options depth) c))
  rcases h depth c c' hc hts hend with ⟨hn, hread⟩ | ⟨hn, token, hread⟩
  · change primary (expression options depth) c = .ok (e, c') at hread
    refine .inl ⟨hn, c'.remaining, Nat.le_refl _, ?_⟩
    show access (expression options depth) c = _
    rw [access, hread, resume_access]
    dsimp only
    split
    · rfl
    · rename_i hnot
      refine (accessTail_done fun hmem => ?_).symm
      simp only [Level.continuations, List.mem_cons, List.not_mem_nil, or_false] at hmem
      rcases hmem with hmem | hmem | hmem <;> simp [hmem, continuesAccess] at hnot
  · change primary (expression options depth) c = _ at hread
    exact .inr ⟨hn, token, by rw [access, hread]⟩

theorem resumes_member {dot token : Token} {name : Text} (hdot : dot.type = .dot)
    (hcontent : token.content = .identifier name) (h : Resumes options .access ts e n) :
    Resumes options .access (ts ++ [dot, token]) (.member e name) n := by
  intro depth c c' hc hconsumes _
  obtain ⟨c₁, hts, hrest⟩ := Consumes.append_iff.1 hconsumes
  obtain ⟨rfl, hne, c₂, hadvance, hrest⟩ := Consumes.cons_iff.1 hrest
  obtain ⟨rfl, hne', c₃, hadvance', hnil⟩ := Consumes.cons_iff.1 hrest
  rw [Consumes.nil_iff] at hnil
  subst hnil
  have hc₁ := hc.consumes hts
  have hc₂ := hc₁.consumes (.single hne hadvance)
  rcases h depth c c₁ hc hts (by rw [hdot]; decide) with ⟨hn, steps, hsteps, hread⟩ | hdeep
  · have hlt := Cursor.remaining_of_advance hc₁ hne hadvance
    have hlt' := Cursor.remaining_of_advance hc₂ hne' hadvance'
    obtain ⟨steps, rfl⟩ : ∃ k, steps = k + 1 := ⟨steps - 1, by omega⟩
    refine .inl ⟨hn, steps, by omega, ?_⟩
    rw [hread, resume_access, accessTail]
    simp only [hdot, hadvance, memberName, hcontent, hadvance', resume_access]
  · exact .inr hdeep

theorem resumes_index {left right : Token} {base key : Expr} (hleft : left.type = .leftBracket)
    (hright : right.type = .rightBracket) (hbase : Resumes options .access ts base m)
    (hkey : Reads options .expression us key n) :
    Resumes options .access (ts ++ left :: (us ++ [right])) (.index base key) (max m n) := by
  intro depth c c' hc hconsumes _
  obtain ⟨c₁, hts, hrest⟩ := Consumes.append_iff.1 hconsumes
  obtain ⟨rfl, hne, c₂, hadvance, hrest⟩ := Consumes.cons_iff.1 hrest
  obtain ⟨c₃, hus, hrest⟩ := Consumes.append_iff.1 hrest
  obtain ⟨rfl, hne', c₄, hadvance', hnil⟩ := Consumes.cons_iff.1 hrest
  rw [Consumes.nil_iff] at hnil
  subst hnil
  have hc₁ := hc.consumes hts
  have hc₂ := hc₁.consumes (.single hne hadvance)
  have hc₃ := hc₂.consumes hus
  rcases hbase depth c c₁ hc hts (by rw [hleft]; decide) with
    ⟨hm, steps, hsteps, hread⟩ | ⟨hm, htoken⟩
  · have hlt := Cursor.remaining_of_advance hc₁ hne hadvance
    have hle := hus.remaining_le hc₂
    have hlt' := Cursor.remaining_of_advance hc₃ hne' hadvance'
    obtain ⟨steps, rfl⟩ : ∃ k, steps = k + 1 := ⟨steps - 1, by omega⟩
    rw [hread, resume_access, accessTail]
    simp only [hleft, hadvance, indexKey]
    have hinner := hkey depth c₂ c₃ hc₂ hus (by rw [hright]; decide)
    change Settles _ depth (expression options depth c₂) _ at hinner
    rcases hinner with ⟨hn, hread⟩ | ⟨hn, token, hread⟩
    · refine .inl ⟨by omega, steps, by omega, ?_⟩
      simp only [hread, expect_complete hright hadvance', resume_access]
    · exact .inr ⟨by omega, token, by simp only [hread]⟩
  · exact .inr ⟨by omega, htoken⟩

/-! ## Operators in front -/

/-- The first token of an access is no operator in front. -/
theorem unaryOperator?_of_access (hd : Derives options .access ts e n)
    (hts : Consumes c ts c') : unaryOperator? c.current.type = none := by
  obtain ⟨t, us, rfl, ht⟩ := hd.starts
  rw [(Consumes.cons_iff.1 hts).1]
  simp only [Level.starters, List.mem_cons, List.not_mem_nil, or_false] at ht
  rcases ht with h | h | h | h | h | h | h <;> rw [h] <;> rfl

theorem reads_operand_lift (hd : Derives options .access ts e n)
    (h : Reads options .access ts e n) : Reads options .operand ts e n := by
  intro depth c c' hc hts hend
  have haccess := h depth c c' hc hts hend
  show Settles n depth (unary (innerOperand options depth) (expression options depth) c) _
  rw [unary, unaryOperator?_of_access hd hts]
  exact haccess

theorem reads_unary {front : UnaryOperator} (hsign : (sign.type, front) ∈ frontOperators)
    (h : Reads options .operand ts e n) :
    Reads options .operand (sign :: ts) (.unary front e) (n + 1) := by
  intro depth c c' hc hconsumes hend
  obtain ⟨rfl, hne, c₁, hadvance, hts⟩ := Consumes.cons_iff.1 hconsumes
  show Settles (n + 1) depth (unary (innerOperand options depth) (expression options depth) c) _
  rw [unary, unaryOperator?_eq_some_iff.2 hsign]
  simp only [hadvance]
  cases depth with
  | zero => exact .inr ⟨Nat.succ_pos _, c₁.current, by rw [innerOperand]; rfl⟩
  | succ depth =>
    rw [innerOperand_succ]
    rcases h depth c₁ c' (hc.consumes (.single hne hadvance)) hts hend with
      ⟨hn, hread⟩ | ⟨hn, token, hread⟩
    · exact .inl ⟨Nat.succ_le_succ hn, by simp only [hread]⟩
    · exact .inr ⟨Nat.succ_lt_succ hn, token, by simp only [hread]⟩

/-! ## Expressions -/

theorem disjunction_eq_reader (depth : Nat) :
    disjunction options (reader options depth .operand) = reader options depth .disjunction :=
  rfl

theorem reads_plain (h : Reads options .disjunction ts e n) :
    Reads options .expression ts e (n + 1) := by
  intro depth c c' hc hts hend
  cases depth with
  | zero => exact .inr ⟨Nat.succ_pos _, c.current, by rw [reader, expression]; rfl⟩
  | succ depth =>
    rw [reader_expression_succ, conditional, disjunction_eq_reader]
    have hdisjunction : c'.current.type ∉ Level.disjunction.continuations := by
      intro hmem
      exact hend (List.mem_cons_of_mem _ hmem)
    rcases h depth c c' hc hts hdisjunction with ⟨hn, hread⟩ | ⟨hn, token, hread⟩
    · have hquestion : c'.current.type ≠ .question := by
        intro heq
        rw [heq] at hend
        exact hend (by decide)
      exact .inl ⟨Nat.succ_le_succ hn, by simp [hread, hquestion]⟩
    · exact .inr ⟨Nat.succ_lt_succ hn, token, by rw [hread]⟩

theorem reads_conditional {vs : List Token} {question colon : Token} {i t f : Expr} {k : Nat}
    (hallowed : options.conditionalAllowed = true) (hquestion : question.type = .question)
    (hcolon : colon.type = .colon) (hcondition : Reads options .disjunction ts i k)
    (hthen : Reads options .expression us t m) (helse : Reads options .expression vs f n) :
    Reads options .expression (ts ++ question :: (us ++ colon :: vs)) (.conditional i t f)
      (max k (max m n) + 1) := by
  intro depth c c' hc hconsumes hend
  obtain ⟨c₁, hts, hrest⟩ := Consumes.append_iff.1 hconsumes
  obtain ⟨rfl, hne, c₂, hadvance, hrest⟩ := Consumes.cons_iff.1 hrest
  obtain ⟨c₃, hus, hrest⟩ := Consumes.append_iff.1 hrest
  obtain ⟨rfl, hne', c₄, hadvance', hvs⟩ := Consumes.cons_iff.1 hrest
  have hc₁ := hc.consumes hts
  have hc₂ := hc₁.consumes (.single hne hadvance)
  have hc₃ := hc₂.consumes hus
  have hc₄ := hc₃.consumes (.single hne' hadvance')
  cases depth with
  | zero => exact .inr ⟨Nat.succ_pos _, c.current, by rw [reader, expression]; rfl⟩
  | succ depth =>
    rw [reader_expression_succ, conditional, disjunction_eq_reader]
    rcases hcondition depth c c₁ hc hts (by rw [hquestion]; decide) with
      ⟨hk, hread⟩ | ⟨hk, token, hread⟩
    · simp only [hread, hquestion, if_true, hadvance, hallowed, branches]
      have hfirst := hthen depth c₂ c₃ hc₂ hus (by rw [hcolon]; decide)
      change Settles _ depth (expression options depth c₂) _ at hfirst
      rcases hfirst with ⟨hm, hread⟩ | ⟨hm, token, hread⟩
      · simp only [hread, expect_complete hcolon hadvance']
        have hsecond := helse depth c₄ c' hc₄ hvs hend
        change Settles _ depth (expression options depth c₄) _ at hsecond
        rcases hsecond with ⟨hn, hread⟩ | ⟨hn, token, hread⟩
        · exact .inl ⟨by omega, by rw [hread]⟩
        · exact .inr ⟨by omega, token, by rw [hread]⟩
      · exact .inr ⟨by omega, token, by rw [hread]⟩
    · exact .inr ⟨by omega, token, by rw [hread]⟩

end

/-! ## All levels -/

theorem resumes_lift {ts : List Token} {e : Expr} {n : Nat} (hnext : level.tighter? = some next)
    (hd : Derives options next ts e n) (h : Reads options next ts e n) :
    Resumes options level ts e n := by
  cases level with
  | expression | primary => cases hnext
  | disjunction | conjunction | relation | sum | product => exact resumes_chain_lift rfl hnext h
  | equality =>
    cases hnext
    exact (reads_equality_lift h).resumes rfl (by decide)
  | operand =>
    cases hnext
    exact (reads_operand_lift hd h).resumes rfl (by decide)
  | access =>
    cases hnext
    exact resumes_access_lift h

theorem resumes_binary {ts us : List Token} {sign : Token} {operator : BinaryOperator} {l r : Expr}
    {m n : Nat} (hnext : level.tighter? = some next)
    (hsign : (sign.type, operator) ∈ level.operators) (hpermitted : Permitted options operator)
    (hleft : Resumes options level.leftOperand ts l m) (hright : Reads options next us r n) :
    Resumes options level (ts ++ sign :: us) (.binary operator l r) (max m n) := by
  cases level with
  | expression | primary => cases hnext
  | disjunction | conjunction | relation | sum | product =>
    exact resumes_chain_binary rfl hnext hsign hpermitted hleft hright
  | equality =>
    cases hnext
    exact (reads_equality_binary hsign hpermitted hleft.reads hright).resumes rfl (by decide)
  | operand | access => cases hsign

/-- The induction over a derivation. -/
theorem resumes_of_derives {ts : List Token} {e : Expr} {n : Nat}
    (h : Derives options level ts e n) : Resumes options level ts e n := by
  induction h with
  | plain _ ih => exact (reads_plain ih.reads).resumes rfl (by decide)
  | conditional hallowed hquestion hcolon _ _ _ ih ih' ih'' =>
    exact (reads_conditional hallowed hquestion hcolon ih.reads ih'.reads ih''.reads).resumes rfl
      (by decide)
  | lift hnext hd ih => exact resumes_lift hnext hd ih.reads
  | binary hnext hsign hpermitted _ _ ih ih' =>
    exact resumes_binary hnext hsign hpermitted ih ih'.reads
  | unary hsign _ ih => exact (reads_unary hsign ih.reads).resumes rfl (by decide)
  | member hdot hname _ ih => exact resumes_member hdot hname ih
  | index hleft hright _ _ ih ih' => exact resumes_index hleft hright ih ih'.reads
  | literal htype => exact (reads_literal htype).resumes rfl (by decide)
  | identifier htype => exact (reads_identifier htype).resumes rfl (by decide)
  | call hname hleft hright hseparated hderives ih =>
    exact (reads_call hname hleft hright hseparated hderives fun p hp => (ih p hp).reads).resumes
      rfl (by decide)
  | group hleft hright _ ih => exact (reads_group hleft hright ih.reads).resumes rfl (by decide)

theorem reads_of_derives {ts : List Token} {e : Expr} {n : Nat}
    (h : Derives options level ts e n) : Reads options level ts e n :=
  (resumes_of_derives h).reads

end Parser

end ExprLang
