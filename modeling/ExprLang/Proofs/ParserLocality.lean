import ExprLang.Proofs.LocalReading

/-!
# The parser decides by what it has read

Every reader of the parser fails at the first token that cannot go on with what has been read, and
whatever stands behind that token, unless the stream breaks off before the reader can say so.  The
development follows the parser's own functions from the tightest level to the loosest; the loops
are read as if they had no limit on their rounds.

* `PhraseBelow` — the phrases that a reader with some depth left may read, with a lemma per rule.
* `Definite` — a reader that reads phrases of a level and has a verdict on every stream.
* `chainLoop`, `argumentsLoop`, `accessLoop` — the loops, with as many rounds as there are tokens.
* `definite_expression` — expressions at every depth.
-/

namespace ExprLang

namespace Parser

variable {options : ParserOptions} {level next : Level} {limit : Nat} {c c' : Cursor}

/-- The phrases of a level with a nesting below a limit. -/
def PhraseBelow (options : ParserOptions) (level : Level) (limit : Nat) (ts : List Token)
    (e : Expr) : Prop :=
  ∃ n < limit, Derives options level ts e n

/-- A reader of phrases that decides by what it has read. -/
structure Definite (options : ParserOptions) (level : Level) (limit : Nat) (p : Parser Expr) :
    Prop where
  sound : Sound options level limit p
  judges : Judges (PhraseBelow options level limit) p

/-- On streams that end, such a reader always comes to a decision. -/
theorem Definite.decides {p : Parser Expr} (h : Definite options level limit p) :
    Decides (PhraseBelow options level limit) p :=
  fun c hc => (h.judges c hc.terminated).decidesAt hc

namespace PhraseBelow

variable {ts us vs : List Token} {e k l r : Expr}

theorem lift (hnext : level.tighter? = some next) (h : PhraseBelow options next limit ts e) :
    PhraseBelow options level limit ts e := by
  obtain ⟨n, hn, hd⟩ := h
  exact ⟨n, hn, .lift hnext hd⟩

theorem binary {sign : Token} {operator : BinaryOperator} (hnext : level.tighter? = some next)
    (hsign : (sign.type, operator) ∈ level.operators) (hpermitted : Permitted options operator)
    (hleft : PhraseBelow options level.leftOperand limit ts l)
    (hright : PhraseBelow options next limit us r) :
    PhraseBelow options level limit (ts ++ sign :: us) (.binary operator l r) := by
  obtain ⟨m, hm, hl⟩ := hleft
  obtain ⟨n, hn, hr⟩ := hright
  exact ⟨max m n, Nat.max_lt.2 ⟨hm, hn⟩, .binary hnext hsign hpermitted hl hr⟩

theorem unary {sign : Token} {operator : UnaryOperator}
    (hsign : (sign.type, operator) ∈ frontOperators) (h : PhraseBelow options .operand limit ts e) :
    PhraseBelow options .operand (limit + 1) (sign :: ts) (.unary operator e) := by
  obtain ⟨n, hn, hd⟩ := h
  exact ⟨n + 1, Nat.succ_lt_succ hn, .unary hsign hd⟩

theorem member {dot token : Token} {name : Text} (hdot : dot.type = .dot)
    (hcontent : token.content = .identifier name) (h : PhraseBelow options .access limit ts e) :
    PhraseBelow options .access limit (ts ++ [dot, token]) (.member e name) := by
  obtain ⟨n, hn, hd⟩ := h
  exact ⟨n, hn, .member hdot hcontent hd⟩

theorem index {left right : Token} (hleft : left.type = .leftBracket)
    (hright : right.type = .rightBracket) (h : PhraseBelow options .access limit ts e)
    (hkey : PhraseBelow options .expression limit us k) :
    PhraseBelow options .access limit (ts ++ left :: (us ++ [right])) (.index e k) := by
  obtain ⟨m, hm, hd⟩ := h
  obtain ⟨n, hn, hk⟩ := hkey
  exact ⟨max m n, Nat.max_lt.2 ⟨hm, hn⟩, .index hleft hright hd hk⟩

theorem group {left right : Token} (hleft : left.type = .leftParen)
    (hright : right.type = .rightParen) (h : PhraseBelow options .expression limit ts e) :
    PhraseBelow options .primary limit (left :: (ts ++ [right])) e := by
  obtain ⟨n, hn, hd⟩ := h
  exact ⟨n, hn, .group hleft hright hd⟩

theorem plain (h : PhraseBelow options .disjunction limit ts e) :
    PhraseBelow options .expression (limit + 1) ts e := by
  obtain ⟨n, hn, hd⟩ := h
  exact ⟨n + 1, Nat.succ_lt_succ hn, .plain hd⟩

theorem conditional {question colon : Token} (hallowed : options.conditionalAllowed = true)
    (hquestion : question.type = .question) (hcolon : colon.type = .colon)
    (hcondition : PhraseBelow options .disjunction limit ts e)
    (hthen : PhraseBelow options .expression limit us l)
    (helse : PhraseBelow options .expression limit vs r) :
    PhraseBelow options .expression (limit + 1) (ts ++ question :: (us ++ colon :: vs))
      (.conditional e l r) := by
  obtain ⟨k, hk, he⟩ := hcondition
  obtain ⟨m, hm, hl⟩ := hthen
  obtain ⟨n, hn, hr⟩ := helse
  exact ⟨_, by omega, .conditional hallowed hquestion hcolon he hl hr⟩

/-- Something can stand wherever a primary expression has to. -/
theorem null_primary (hlimit : 0 < limit) :
    PhraseBelow options .primary limit [Token.ofType .null] (.literal .null) :=
  ⟨0, hlimit, .literal rfl⟩

/-- Something can stand wherever an expression has to, if there is depth for one. -/
theorem null (hlimit : 1 < limit) :
    PhraseBelow options .expression limit [Token.ofType .null] (.literal .null) :=
  ⟨1, hlimit, .plain (.loosen (.literal rfl) (by decide) (by decide))⟩

/-- Where there is depth for an expression, there is depth for another one. -/
theorem beside (h : PhraseBelow options .expression limit ts e) :
    PhraseBelow options .expression limit [Token.ofType .null] (.literal .null) := by
  obtain ⟨n, hn, hd⟩ := h
  exact null (Nat.lt_of_le_of_lt hd.nesting_pos hn)

end PhraseBelow

/-! ## Operators -/

variable (options) in
/-- An operator and then another reader; what stands in front of the operator is a phrase. -/
theorem verdict_operator {α : Type} {phrase : List Token → α → Prop} {p q : Parser α}
    (operator : BinaryOperator) (hc : c.Terminated) (htype : c.current.type ≠ .eof)
    (hviable : ∃ a, phrase [] a)
    (hp : ∀ d, d.Terminated → d.current = c.current →
      p d = takeOperator options operator d >>= q)
    (hq : Permitted options operator → ∀ c', c'.Terminated → c'.remaining < c.remaining →
      Verdict (fun ts => phrase (c.current :: ts)) q c') : Verdict phrase p c := by
  by_cases hpermitted : Permitted options operator
  · refine .token hc htype (fun d hd heq => ?_) (hq hpermitted)
    rw [hp d hd heq]
    cases hadvance : d.advance with
    | error error => rw [takeOperator, hadvance]
    | ok d' => rw [takeOperator_complete hadvance hpermitted]
  · have hforbidden : allowsOperator options operator ≠ true :=
      fun hallowed => hpermitted (allowsOperator_iff.1 hallowed)
    obtain ⟨a, ha⟩ := hviable
    refine .stopBehind .operatorNotAllowed rfl ⟨[], a, ha⟩ fun d hd heq => ?_
    rw [hp d hd heq, takeOperator]
    cases d.advance with
    | error error => rfl
    | ok d' =>
      show (if allowsOperator options operator then _ else _) >>= q = _
      rw [if_neg hforbidden]
      rfl

section

variable {operand : Parser Expr} {left : Expr}

/-- A right operand and what follows it. -/
def chainRound (operand : Parser Expr) (loop : Expr → Parser Expr) (operator : BinaryOperator)
    (left : Expr) : Parser Expr := fun c => do
  let (right, c') ← operand c
  loop (.binary operator left right) c'

/-- One round of the loop over the operators of a level. -/
def chainBody (options : ParserOptions) (level : Level) (operand : Parser Expr)
    (loop : Expr → Parser Expr) (left : Expr) : Parser Expr := fun c =>
  match operatorOf? level c.current.type with
  | none => .ok (left, c)
  | some operator => takeOperator options operator c >>= chainRound operand loop operator left

theorem loop_chainTail (h : Sound options next limit operand) :
    Loop (chainTail options (operatorOf? level) operand) (chainBody options level operand) where
  succ k left c := by
    rw [chainTail, chainBody]
    cases operatorOf? level c.current.type with
    | none => rfl
    | some operator =>
      dsimp only
      cases takeOperator options operator c with
      | error error => rfl
      | ok c₁ =>
        show _ = chainRound operand _ operator left c₁
        dsimp only [chainRound]
        cases operand c₁ <;> rfl
  ended k loop left c hend := by
    have hnone : operatorOf? level c.current.type = none := by
      cases hoperator : operatorOf? level c.current.type with
      | none => rfl
      | some operator => exact absurd hend (operatorOf?_ne_eof hoperator)
    rw [chainTail_done hnone, chainBody, hnone]
  congr loop loop' left c hc hsame := by
    unfold chainBody
    cases hoperator : operatorOf? level c.current.type with
    | none => rfl
    | some operator =>
      dsimp only
      cases hsign : takeOperator options operator c with
      | error error => rfl
      | ok c₁ =>
        obtain ⟨hconsumes, -⟩ := takeOperator_ok (operatorOf?_ne_eof hoperator) hsign
        exact hconsumes.bind_congr h hc fun right => hsame _

/-- The operators of a level and their right operands, as many as there are. -/
def chainLoop (options : ParserOptions) (level : Level) (operand : Parser Expr) (left : Expr) :
    Parser Expr := fun c =>
  chainTail options (operatorOf? level) operand c.remaining left c

theorem chain_eq (c : Cursor) : chain options (operatorOf? level) operand c = (do
    let (left, c') ← operand c
    chainLoop options level operand left c') := by
  unfold chain
  cases hleft : operand c with
  | error error => rfl
  | ok result =>
    obtain ⟨left, c₁⟩ := result
    dsimp only
    split
    · rfl
    · rename_i hnone
      exact (chainTail_done (by simpa using hnone)).symm

theorem verdict_chainLoop (hnext : level.tighter? = some next)
    (hchains : level.leftOperand = level) (h : Definite options next limit operand)
    {ts : List Token} (hleft : PhraseBelow options level limit ts left) (hc : c.Terminated) :
    Verdict (fun us => PhraseBelow options level limit (ts ++ us))
      (chainLoop options level operand left) c := by
  -- on the tokens that are left: a round takes one of them at least
  induction hsize : c.remaining using Nat.strongRecOn generalizing c ts left with
  | ind size ih =>
    subst hsize
    have hdone : PhraseBelow options level limit (ts ++ []) left := by
      rwa [List.append_nil]
    have hunroll : ∀ d, Cursor.Terminated d → chainLoop options level operand left d =
        chainBody options level operand (chainLoop options level operand) left d :=
      fun d hd => (loop_chainTail h.sound).unroll hd left
    refine .congr ?_ fun d hd _ => hunroll d hd
    cases hoperator : operatorOf? level c.current.type with
    | none => exact .done hdone fun d _ heq => by rw [chainBody, heq, hoperator]
    | some operator =>
      refine verdict_operator
        (q := chainRound operand (chainLoop options level operand) operator left)
        options operator hc (operatorOf?_ne_eof hoperator) ⟨left, hdone⟩
        (fun d _ heq => by rw [chainBody, heq, hoperator])
        fun hpermitted c₁ hc₁ hlt => ?_
      have hbinary : ∀ us right, PhraseBelow options next limit us right →
          PhraseBelow options level limit (ts ++ c.current :: us) (.binary operator left right) :=
        fun us right hright => .binary hnext (operatorOf?_eq_some_iff.1 hoperator) hpermitted
          (hchains.symm ▸ hleft) hright
      refine .bind hc₁ (h.judges c₁ hc₁)
        (fun d error _ _ hright => by rw [chainRound, hright]; rfl)
        (fun d right d' _ _ hright => by rw [chainRound, hright]) (fun us right hright => ?_)
        fun us right c₂ hc₂ hle hright => ?_
      · exact ⟨[], _, by simpa using hbinary us right hright⟩
      · have hrest := ih c₂.remaining (by omega) (hbinary us right hright) hc₂ rfl
        exact hrest.mono fun vs e he => by simpa using he

theorem definite_chain (level : Level) (hnext : level.tighter? = some next)
    (hchains : level.leftOperand = level) (h : Definite options next limit operand) :
    Definite options level limit (chain options (operatorOf? level) operand) := by
  refine ⟨sound_chain level hnext hchains h.sound, fun c hc => ?_⟩
  refine .bind hc (h.judges c hc) (fun d error _ _ hleft => by rw [chain_eq, hleft]; rfl)
    (fun d left d' _ _ hleft => by rw [chain_eq, hleft]; rfl) (fun ts left hleft => ?_)
    fun ts left c₁ hc₁ _ hleft => verdict_chainLoop hnext hchains h (hleft.lift hnext) hc₁
  exact ⟨[], left, by simpa using hleft.lift hnext⟩

/-- The right operand of a level that does not chain, behind which no further operator may stand. -/
def equalityRound (operand : Parser Expr) (operator : BinaryOperator) (left : Expr) : Parser Expr :=
  fun c => do
    let (right, c') ← operand c
    if (equalityOperator? c'.current.type).isSome then c'.fail .chainedEquality
    else return (.binary operator left right, c')

theorem definite_equality (h : Definite options .relation limit operand) :
    Definite options .equality limit (equality options operand) := by
  refine ⟨sound_equality h.sound, fun c hc => ?_⟩
  have hlift : ∀ ts e, PhraseBelow options .relation limit ts e →
      PhraseBelow options .equality limit (ts ++ []) e := by
    intro ts e he
    rw [List.append_nil]
    exact he.lift rfl
  refine .bind hc (h.judges c hc) (fun d error _ _ hleft => by simp only [equality, hleft])
    (fun d left d' _ _ hleft => by simp only [equality, hleft]; rfl)
    (fun ts left hleft => ⟨[], left, hlift ts left hleft⟩) fun ts left c₁ hc₁ _ hleft => ?_
  cases hoperator : equalityOperator? c₁.current.type with
  | none => exact .done (hlift ts left hleft) fun d _ heq => by simp only [heq, hoperator]
  | some operator =>
    have hsome : operatorOf? .equality c₁.current.type = some operator := hoperator
    refine verdict_operator (q := equalityRound operand operator left) options operator hc₁
      (operatorOf?_ne_eof hsome) ⟨left, hlift ts left hleft⟩ (fun d _ heq => ?_)
      fun hpermitted c₂ hc₂ _ => ?_
    · simp only [heq, hoperator]
      cases takeOperator options operator d with
      | error error => rfl
      | ok d₁ =>
        show _ = equalityRound operand operator left d₁
        dsimp only [equalityRound]
        cases operand d₁ <;> rfl
    have hbinary : ∀ us right, PhraseBelow options .relation limit us right →
        PhraseBelow options .equality limit (ts ++ c₁.current :: (us ++ []))
          (.binary operator left right) := by
      intro us right hright
      rw [List.append_nil]
      exact .binary rfl (equalityOperator?_eq_some_iff.1 hoperator) hpermitted hleft hright
    -- the level does not chain, so it looks once more behind the right operand
    refine .bind hc₂ (h.judges c₂ hc₂)
      (fun d error _ _ hright => by rw [equalityRound, hright]; rfl)
      (fun d right d' _ _ hright => by rw [equalityRound, hright])
      (fun us right hright => ⟨[], _, hbinary us right hright⟩) fun us right c₃ hc₃ _ hright => ?_
    by_cases hchained : (equalityOperator? c₃.current.type).isSome
    · refine .stop .chainedEquality rfl (fun _ => ⟨[], _, hbinary us right hright⟩)
        fun d _ heq => ?_
      exact if_pos (heq ▸ hchained)
    · exact .done (hbinary us right hright) fun d _ heq => if_neg (heq ▸ hchained)

end

/-! ## Primary expressions -/

section

variable {nested : Parser Expr} {body : List Token} {args : List Expr}

/-- The arguments behind one. -/
def argumentsRest (loop : Unit → Parser (List Expr)) (argument : Expr) : Parser (List Expr) :=
  fun c => do
    let (others, c') ← loop () c
    return (argument :: others, c')

/-- An argument and those behind it. -/
def argumentsRound (nested : Parser Expr) (loop : Unit → Parser (List Expr)) :
    Parser (List Expr) := fun c => do
  let (argument, c') ← nested c
  argumentsRest loop argument c'

/-- One round of the loop over the arguments behind a first one. -/
def argumentsBody (nested : Parser Expr) (loop : Unit → Parser (List Expr)) (_ : Unit) :
    Parser (List Expr) := fun c =>
  if c.current.type = .comma then c.advance >>= argumentsRound nested loop else .ok ([], c)

theorem loop_argumentsTail (h : Sound options .expression limit nested) :
    Loop (fun k _ => argumentsTail nested k) (argumentsBody nested) where
  succ k s c := by
    rw [argumentsTail, argumentsBody]
    split
    · cases c.advance with
      | error error => rfl
      | ok c₁ =>
        show _ = argumentsRound nested _ c₁
        dsimp only [argumentsRound]
        cases nested c₁ with
        | error error => rfl
        | ok result =>
          obtain ⟨argument, c₂⟩ := result
          show _ = argumentsTail nested k c₂ >>= _
          dsimp only
          cases argumentsTail nested k c₂ <;> rfl
    · rfl
  ended k loop s c hend := by
    have hcomma : c.current.type ≠ .comma := by
      rw [hend]
      decide
    rw [argumentsBody, if_neg hcomma]
    cases k with
    | zero => rfl
    | succ k => rw [argumentsTail, if_neg hcomma]
  congr loop loop' s c hc hsame := by
    unfold argumentsBody
    split
    · rename_i hcomma
      cases hadvance : c.advance with
      | error error => rfl
      | ok c₁ =>
        have htype : c.current.type ≠ .eof := by
          rw [hcomma]
          decide
        refine (Consumes.single htype hadvance).bind_congr h hc fun argument d hd hlt => ?_
        rw [argumentsRest, argumentsRest, hsame () d hd hlt]
    · rfl

/-- The arguments behind a first one, as many as there are. -/
def argumentsLoop (nested : Parser Expr) : Parser (List Expr) := fun c =>
  argumentsTail nested c.remaining c

theorem verdict_argumentsLoop (h : Definite options .expression limit nested) (hc : c.Terminated) :
    Verdict (ArgumentTail options limit) (argumentsLoop nested) c := by
  induction hsize : c.remaining using Nat.strongRecOn generalizing c with
  | ind size ih =>
    subst hsize
    have hunroll : ∀ d, Cursor.Terminated d → argumentsLoop nested d =
        argumentsBody nested (fun _ => argumentsLoop nested) () d :=
      fun d hd => (loop_argumentsTail h.sound).unroll hd ()
    refine .congr ?_ fun d hd _ => hunroll d hd
    by_cases hcomma : c.current.type = .comma
    · have htype : c.current.type ≠ .eof := by
        rw [hcomma]
        decide
      refine .token (q := argumentsRound nested fun _ => argumentsLoop nested) hc htype
        (fun d _ heq => by rw [argumentsBody, heq, if_pos hcomma])
        fun c₁ hc₁ hlt => ?_
      refine .bind (q := argumentsRest fun _ => argumentsLoop nested) hc₁ (h.judges c₁ hc₁)
        (fun d error _ _ hargument => by rw [argumentsRound, hargument]; rfl)
        (fun d argument d' _ _ hargument => by rw [argumentsRound, hargument]; rfl) ?_ ?_
      · rintro ts argument ⟨n, hn, hd⟩
        exact ⟨[], [argument], .cons ts hcomma hn hd .nil⟩
      · rintro ts argument c₂ hc₂ hle ⟨n, hn, hd⟩
        exact .map hc₂ (ih c₂.remaining (by omega) hc₂ rfl)
          (fun d error _ _ hrest => by rw [argumentsRest, hrest]; rfl)
          (fun d others d' _ _ hrest => by rw [argumentsRest, hrest]; rfl)
          fun us others hothers => .cons ts hcomma hn hd hothers
    · exact .done .nil fun d _ heq => by rw [argumentsBody, heq, if_neg hcomma]

theorem arguments_eq (hopen : c.current.type ≠ .rightParen) : arguments nested c = (do
    let (first, c') ← nested c
    argumentsRest (fun _ => argumentsLoop nested) first c') := by
  rw [arguments, if_neg hopen]
  cases nested c with
  | error error => rfl
  | ok result =>
    obtain ⟨first, c₁⟩ := result
    show _ = argumentsLoop nested c₁ >>= _
    dsimp only [argumentsLoop]
    cases argumentsTail nested c₁.remaining c₁ <;> rfl

theorem argumentList_nil : ArgumentList options limit [] [] :=
  ⟨[], rfl, .nil, by simp⟩

theorem judges_arguments (h : Definite options .expression limit nested) :
    Judges (ArgumentList options limit) (arguments nested) := by
  intro c hc
  by_cases hclose : c.current.type = .rightParen
  · exact .done argumentList_nil fun d _ heq => by rw [arguments, heq, if_pos hclose]
  · refine .bind (q := argumentsRest fun _ => argumentsLoop nested) hc (h.judges c hc)
      (fun d error _ heq hfirst => by rw [arguments_eq (heq ▸ hclose), hfirst]; rfl)
      (fun d first d' _ heq hfirst => by rw [arguments_eq (heq ▸ hclose), hfirst]; rfl) ?_ ?_
    · rintro ts first ⟨n, hn, hd⟩
      exact ⟨[], [first], ArgumentTail.nil.toList hn hd⟩
    · rintro ts first c₁ hc₁ - ⟨n, hn, hd⟩
      exact .map hc₁ (verdict_argumentsLoop h hc₁)
        (fun d error _ _ hothers => by rw [argumentsRest, hothers]; rfl)
        (fun d others d' _ _ hothers => by rw [argumentsRest, hothers]; rfl)
        fun us others hothers => hothers.toList hn hd

/-- A call of its arguments is a phrase. -/
theorem ArgumentList.call {name left right : Token} {qualifier : Option Text} {function : Text}
    (hargs : ArgumentList options limit body args) (hlimit : 0 < limit)
    (hname : Callee name qualifier function) (hleft : left.type = .leftParen)
    (hright : right.type = .rightParen) :
    PhraseBelow options .primary limit (name :: left :: (body ++ [right]))
      (.call qualifier function args) := by
  obtain ⟨phrases, rfl, hseparated, hall⟩ := hargs
  refine ⟨_, deepest_lt hlimit fun n hn => ?_,
    .call hname hleft hright hseparated fun p hp => (hall p hp).2⟩
  obtain ⟨p, hp, rfl⟩ := List.mem_map.1 hn
  exact (hall p hp).1

/-- The arguments and what closes them. -/
def callRound (nested : Parser Expr) (qualifier : Option Text) (function : Text) : Parser Expr :=
  fun c => do
    let (args, c') ← arguments nested c
    let c'' ← c'.expect .rightParen .expectedArgumentsEnd
    return (.call qualifier function args, c'')

theorem call_eq {qualifier : Option Text} {function : Text} (c : Cursor) :
    call nested qualifier function c =
      c.expect .leftParen .expectedArguments >>= callRound nested qualifier function := by
  rw [call]
  cases c.expect .leftParen .expectedArguments with
  | error error => rfl
  | ok c₁ =>
    show _ = callRound nested qualifier function c₁
    dsimp only [callRound]
    cases arguments nested c₁ with
    | error error => rfl
    | ok result =>
      obtain ⟨args, c₂⟩ := result
      show _ = c₂.expect .rightParen .expectedArgumentsEnd >>= _
      dsimp only
      cases c₂.expect .rightParen .expectedArgumentsEnd <;> rfl

/-- A call, behind the function's name. -/
theorem judges_call {name : Token} {qualifier : Option Text} {function : Text}
    (hlimit : 0 < limit) (hname : Callee name qualifier function)
    (h : Definite options .expression limit nested) :
    Judges (fun us => PhraseBelow options .primary limit (name :: us))
      (call nested qualifier function) := by
  intro c hc
  refine .expect (q := callRound nested qualifier function) .leftParen .expectedArguments rfl hc
    (by decide)
    ⟨[.ofType .leftParen, .ofType .rightParen], _, argumentList_nil.call hlimit hname rfl rfl⟩
    (fun d _ _ => call_eq d) fun hleft c₁ hc₁ _ => ?_
  refine .bind hc₁ (judges_arguments h c₁ hc₁)
    (fun d error _ _ hargs => by rw [callRound, hargs]; rfl)
    (fun d args d' _ _ hargs => by rw [callRound, hargs])
    (fun body args hargs => ⟨[.ofType .rightParen], _, hargs.call hlimit hname hleft rfl⟩)
    fun body args c₂ hc₂ _ hargs => ?_
  exact .close .rightParen .expectedArgumentsEnd rfl (.call qualifier function args) hc₂
    (by decide) (fun d _ _ => rfl) fun right hright => hargs.call hlimit hname hleft hright

/-- An expression in parentheses, behind the opening one. -/
theorem judges_group {left : Token} (hleft : left.type = .leftParen)
    (h : Definite options .expression limit nested) :
    Judges (fun us => PhraseBelow options .primary limit (left :: us)) (group nested) := by
  intro c hc
  refine .bind hc (h.judges c hc) (fun d error _ _ hinner => by rw [group, hinner])
    (fun d inner d' _ _ hinner => by rw [group, hinner])
    (fun ts inner hinner => ⟨[.ofType .rightParen], inner, hinner.group hleft rfl⟩)
    fun ts inner c₁ hc₁ _ hinner => ?_
  refine .close .rightParen .expectedGroupEnd rfl inner hc₁ (by decide) (fun d _ _ => ?_)
    fun right hright => hinner.group hleft hright
  dsimp only
  cases d.expect .rightParen .expectedGroupEnd <;> rfl

/-- Behind a name. -/
theorem judges_named {token : Token} {name : Text} (hcontent : token.content = .identifier name)
    (hlimit : 0 < limit) (h : Definite options .expression limit nested) :
    Judges (fun us => PhraseBelow options .primary limit (token :: us)) (named nested name) := by
  intro c hc
  by_cases hleft : c.current.type = .leftParen
  · refine (judges_call hlimit (.simple hcontent) h c hc).congr fun d _ heq => ?_
    rw [named, heq, if_pos hleft]
  · refine .done ⟨0, hlimit, .identifier hcontent⟩ fun d _ heq => ?_
    rw [named, heq, if_neg hleft]

theorem judges_primary (hlimit : 0 < limit) (h : Definite options .expression limit nested) :
    Judges (PhraseBelow options .primary limit) (primary nested) := by
  intro c hc
  have hviable : ∃ us e, PhraseBelow options .primary limit us e :=
    ⟨_, _, .null_primary hlimit⟩
  cases hcontent : c.current.content with
  | literal type value isLiteral =>
    refine .token (q := fun d => .ok (.literal value, d)) hc (Token.type_ne_eof hcontent (by simp))
      (fun d _ heq => ?_) fun c₁ _ _ => .done ⟨0, hlimit, .literal hcontent⟩ fun d _ _ => rfl
    rw [primary, heq, hcontent]
    cases d.advance <;> rfl
  | identifier name =>
    refine .token (q := named nested name) hc (Token.type_ne_eof hcontent (by simp))
      (fun d _ heq => ?_) fun c₁ hc₁ _ => judges_named hcontent hlimit h c₁ hc₁
    rw [primary, heq, hcontent]
    cases d.advance <;> rfl
  | qualifiedName qualifier name =>
    refine .token (q := call nested (some qualifier) name) hc (Token.type_ne_eof hcontent (by simp))
      (fun d _ heq => ?_) fun c₁ hc₁ _ => judges_call hlimit (.qualified hcontent) h c₁ hc₁
    rw [primary, heq, hcontent]
    cases d.advance <;> rfl
  | sign type text isSign =>
    cases type with
    | leftParen =>
      refine .token (q := group nested) hc (Token.type_ne_eof hcontent (by simp))
        (fun d _ heq => ?_) fun c₁ hc₁ _ => judges_group (Token.type_eq hcontent) h c₁ hc₁
      rw [primary, heq, hcontent]
      cases d.advance <;> rfl
    | reserved =>
      refine .stop .reservedWord rfl (fun _ => hviable) fun d _ heq => ?_
      rw [primary, heq, hcontent]
    | _ =>
      refine .stop .expectedExpression rfl (fun _ => hviable) fun d _ heq => ?_
      rw [primary, heq, hcontent]
  | eof =>
    refine .stop .unexpectedEnd rfl (fun _ => hviable) fun d _ heq => ?_
    rw [primary, heq, hcontent]

/-! ## Members and indices -/

theorem judges_memberName :
    Judges (fun ts name => ∃ token : Token, ts = [token] ∧ token.content = .identifier name)
      memberName := by
  intro c hc
  cases hcontent : c.current.content with
  | identifier name =>
    refine .token (q := fun d => .ok (name, d)) hc (Token.type_ne_eof hcontent (by simp))
      (fun d _ heq => ?_) fun c₁ _ _ => .done ⟨c.current, rfl, hcontent⟩ fun d _ _ => rfl
    rw [memberName, heq, hcontent]
    cases d.advance <;> rfl
  | _ =>
    refine .stop .expectedMember rfl (fun _ => ⟨[.ofType .identifier], [], _, rfl, rfl⟩)
      fun d _ heq => ?_
    rw [memberName, heq, hcontent]

theorem judges_indexKey (h : Definite options .expression limit nested) :
    Judges (fun ts key => ∃ us right, ts = us ++ [right] ∧ right.type = .rightBracket ∧
      PhraseBelow options .expression limit us key) (indexKey nested) := by
  intro c hc
  refine .bind hc (h.judges c hc) (fun d error _ _ hkey => by rw [indexKey, hkey])
    (fun d key d' _ _ hkey => by rw [indexKey, hkey])
    (fun ts key hkey => ⟨[.ofType .rightBracket], key, ts, _, rfl, rfl, hkey⟩)
    fun ts key c₁ hc₁ _ hkey => ?_
  refine .close .rightBracket .expectedIndexEnd rfl key hc₁ (by decide) (fun d _ _ => ?_)
    fun right hright => ⟨ts, right, rfl, hright, hkey⟩
  dsimp only
  cases d.expect .rightBracket .expectedIndexEnd <;> rfl

/-- A member and what follows it. -/
def memberRound (loop : Expr → Parser Expr) (base : Expr) : Parser Expr := fun c => do
  let (name, c') ← memberName c
  loop (.member base name) c'

/-- An index and what follows it. -/
def indexRound (nested : Parser Expr) (loop : Expr → Parser Expr) (base : Expr) : Parser Expr :=
  fun c => do
    let (key, c') ← indexKey nested c
    loop (.index base key) c'

/-- One round of the loop over members and indices. -/
def accessBody (nested : Parser Expr) (loop : Expr → Parser Expr) (base : Expr) : Parser Expr :=
  fun c =>
    match c.current.type with
    | .dot => c.advance >>= memberRound loop base
    | .leftBracket => c.advance >>= indexRound nested loop base
    | .leftParen => c.fail .notCallable
    | _ => .ok (base, c)

theorem loop_accessTail (h : Sound options .expression limit nested) :
    Loop (accessTail nested) (accessBody nested) where
  succ k base c := by
    rw [accessTail, accessBody]
    cases c.current.type with
    | dot =>
      cases c.advance with
      | error error => rfl
      | ok c₁ =>
        show _ = memberRound _ base c₁
        dsimp only [memberRound]
        cases memberName c₁ <;> rfl
    | leftBracket =>
      cases c.advance with
      | error error => rfl
      | ok c₁ =>
        show _ = indexRound nested _ base c₁
        dsimp only [indexRound]
        cases indexKey nested c₁ <;> rfl
    | _ => rfl
  ended k loop base c hend := by
    rw [accessTail_done (by rw [hend]; decide), accessBody, hend]
  congr loop loop' base c hc hsame := by
    unfold accessBody
    split
    · rename_i hdot
      cases hadvance : c.advance with
      | error error => rfl
      | ok c₁ =>
        have hconsumes := Consumes.single (by rw [hdot]; decide) hadvance
        exact hconsumes.bind_congr readsOnly_memberName hc fun name => hsame _
    · rename_i hbracket
      cases hadvance : c.advance with
      | error error => rfl
      | ok c₁ =>
        have hconsumes := Consumes.single (by rw [hbracket]; decide) hadvance
        exact hconsumes.bind_congr (readsOnly_indexKey h) hc fun key => hsame _
    · rfl
    · rfl

/-- The members and indices behind a base, as many as there are. -/
def accessLoop (nested : Parser Expr) (base : Expr) : Parser Expr := fun c =>
  accessTail nested c.remaining base c

theorem access_eq (c : Cursor) : access nested c = (do
    let (base, c') ← primary nested c
    accessLoop nested base c') := by
  unfold access
  cases primary nested c with
  | error error => rfl
  | ok result =>
    obtain ⟨base, c₁⟩ := result
    show (if continuesAccess c₁.current.type then _ else _) = accessLoop nested base c₁
    split
    · rfl
    · rename_i hnone
      refine (accessTail_done fun hmem => hnone ?_).symm
      simp only [Level.continuations, List.mem_cons, List.not_mem_nil, or_false] at hmem
      rcases hmem with h | h | h <;> rw [h] <;> rfl

theorem verdict_accessLoop (h : Definite options .expression limit nested) {ts : List Token}
    {base : Expr} (hbase : PhraseBelow options .access limit ts base) (hc : c.Terminated) :
    Verdict (fun us => PhraseBelow options .access limit (ts ++ us))
      (accessLoop nested base) c := by
  induction hsize : c.remaining using Nat.strongRecOn generalizing c ts base with
  | ind size ih =>
    subst hsize
    have hdone : PhraseBelow options .access limit (ts ++ []) base := by
      rwa [List.append_nil]
    have hunroll : ∀ d, Cursor.Terminated d → accessLoop nested base d =
        accessBody nested (accessLoop nested) base d :=
      fun d hd => (loop_accessTail h.sound).unroll hd base
    refine .congr ?_ fun d hd _ => hunroll d hd
    cases htype : c.current.type with
    | dot =>
      refine .token (q := memberRound (accessLoop nested) base) hc (by rw [htype]; decide)
        (fun d _ heq => by rw [accessBody, heq, htype])
        fun c₁ hc₁ hlt => ?_
      refine .bind hc₁ (judges_memberName c₁ hc₁)
        (fun d error _ _ hname => by rw [memberRound, hname]; rfl)
        (fun d name d' _ _ hname => by rw [memberRound, hname]) ?_ ?_
      · rintro _ name ⟨token, rfl, hcontent⟩
        exact ⟨[], _, hbase.member htype hcontent⟩
      · rintro _ name c₂ hc₂ hle ⟨token, rfl, hcontent⟩
        have hrest := ih c₂.remaining (by omega) (hbase.member htype hcontent) hc₂ rfl
        exact hrest.mono fun us e he => by simpa using he
    | leftBracket =>
      refine .token (q := indexRound nested (accessLoop nested) base) hc (by rw [htype]; decide)
        (fun d _ heq => by rw [accessBody, heq, htype])
        fun c₁ hc₁ hlt => ?_
      refine .bind hc₁ (judges_indexKey h c₁ hc₁)
        (fun d error _ _ hkey => by rw [indexRound, hkey]; rfl)
        (fun d key d' _ _ hkey => by rw [indexRound, hkey]) ?_ ?_
      · rintro _ key ⟨us, right, rfl, hright, hkey⟩
        exact ⟨[], _, by simpa using hbase.index htype hright hkey⟩
      · rintro _ key c₂ hc₂ hle ⟨us, right, rfl, hright, hkey⟩
        have hrest := ih c₂.remaining (by omega) (hbase.index htype hright hkey) hc₂ rfl
        exact hrest.mono fun vs e he => by simpa using he
    | leftParen =>
      refine .stop .notCallable rfl (fun _ => ⟨[], base, hdone⟩) fun d _ heq => ?_
      rw [accessBody, heq, htype]
    | _ => exact .done hdone fun d _ heq => by rw [accessBody, heq, htype]

theorem judges_access (hlimit : 0 < limit) (h : Definite options .expression limit nested) :
    Judges (PhraseBelow options .access limit) (access nested) := by
  intro c hc
  refine .bind hc (judges_primary hlimit h c hc)
    (fun d error _ _ hbase => by rw [access_eq, hbase]; rfl)
    (fun d base d' _ _ hbase => by rw [access_eq, hbase]; rfl)
    (fun ts base hbase => ⟨[], base, ?_⟩)
    fun ts base c₁ hc₁ _ hbase => verdict_accessLoop h (hbase.lift rfl) hc₁
  rw [List.append_nil]
  exact hbase.lift rfl

/-! ## Expressions -/

theorem definite_unary {inner : Parser Expr}
    (h : Definite options .expression (limit + 1) nested)
    (hinner : Definite options .operand limit inner) :
    Definite options .operand (limit + 1) (unary inner nested) := by
  refine ⟨sound_unary h.sound hinner.sound, fun c hc => ?_⟩
  cases hoperator : unaryOperator? c.current.type with
  | none =>
    have haccess := judges_access (Nat.succ_pos limit) h c hc
    refine (haccess.congr fun d _ heq => ?_).mono fun ts e he => he.lift rfl
    rw [unary, heq, hoperator]
  | some operator =>
    have hsign := unaryOperator?_eq_some_iff.1 hoperator
    have htype : c.current.type ≠ .eof := by
      intro heof
      rw [heof] at hoperator
      cases hoperator
    refine .token (q := fun d => do
        let (operand, d') ← inner d
        return (.unary operator operand, d')) hc htype (fun d _ heq => ?_) fun c₁ hc₁ _ => ?_
    · rw [unary, heq, hoperator]
      dsimp only
      cases d.advance with
      | error error => rfl
      | ok d₁ =>
        show _ = inner d₁ >>= _
        dsimp only
        cases inner d₁ <;> rfl
    · exact .map hc₁ (hinner.judges c₁ hc₁) (fun d error _ _ hoperand => by rw [hoperand]; rfl)
        (fun d operand d' _ _ hoperand => by rw [hoperand]; rfl)
        fun ts operand hoperand => hoperand.unary hsign

theorem definite_disjunction {operand : Parser Expr} (h : Definite options .operand limit operand) :
    Definite options .disjunction limit (disjunction options operand) :=
  definite_chain .disjunction rfl rfl <|
  definite_chain .conjunction rfl rfl <|
  definite_equality <|
  definite_chain .relation rfl rfl <|
  definite_chain .sum rfl rfl <|
  definite_chain .product rfl rfl h

/-- Behind the question mark. -/
theorem judges_branches {ts : List Token} {question : Token} {condition : Expr}
    (hallowed : options.conditionalAllowed = true) (hquestion : question.type = .question)
    (hcondition : PhraseBelow options .disjunction limit ts condition)
    (h : Definite options .expression limit nested) :
    Judges (fun us => PhraseBelow options .expression (limit + 1) (ts ++ question :: us))
      (branches nested condition) := by
  intro c hc
  refine .bind hc (h.judges c hc) (fun d error _ _ hthen => by rw [branches, hthen])
    (fun d t d' _ _ hthen => by rw [branches, hthen])
    (fun us t ht => ⟨[.ofType .colon, .ofType .null], _,
      .conditional hallowed hquestion rfl hcondition ht ht.beside⟩) fun us t c₁ hc₁ _ ht => ?_
  refine .expect (q := fun d => do
      let (e, d') ← nested d
      return (.conditional condition t e, d')) .colon .expectedColon rfl hc₁ (by decide)
    ⟨[.ofType .colon, .ofType .null], _,
      .conditional hallowed hquestion rfl hcondition ht ht.beside⟩
    (fun d _ _ => ?_) fun hcolon c₂ hc₂ _ => ?_
  · dsimp only
    cases d.expect .colon .expectedColon with
    | error error => rfl
    | ok d₁ =>
      show _ = nested d₁ >>= _
      dsimp only
      cases nested d₁ <;> rfl
  · exact .map hc₂ (h.judges c₂ hc₂) (fun d error _ _ helse => by rw [helse]; rfl)
      (fun d e d' _ _ helse => by rw [helse]; rfl)
      fun vs e he => .conditional hallowed hquestion hcolon hcondition ht he

theorem definite_conditional {operand : Parser Expr}
    (h : Definite options .expression limit nested)
    (hoperand : Definite options .operand limit operand) :
    Definite options .expression (limit + 1) (conditional options nested operand) := by
  refine ⟨sound_conditional h.sound hoperand.sound, fun c hc => ?_⟩
  have hplain : ∀ ts e, PhraseBelow options .disjunction limit ts e →
      PhraseBelow options .expression (limit + 1) (ts ++ []) e := by
    intro ts e he
    rw [List.append_nil]
    exact he.plain
  refine .bind hc ((definite_disjunction hoperand).judges c hc)
    (fun d error _ _ hcondition => by rw [conditional, hcondition])
    (fun d condition d' _ _ hcondition => by rw [conditional, hcondition])
    (fun ts condition hcondition => ⟨[], condition, hplain ts condition hcondition⟩)
    fun ts condition c₁ hc₁ _ hcondition => ?_
  by_cases hquestion : c₁.current.type = .question
  · by_cases hallowed : options.conditionalAllowed = true
    · refine .token (q := branches nested condition) hc₁ (by rw [hquestion]; decide)
        (fun d _ heq => ?_)
        fun c₂ hc₂ _ => judges_branches hallowed hquestion hcondition h c₂ hc₂
      simp only [heq, if_pos hquestion, if_pos hallowed]
      cases d.advance <;> rfl
    · refine .stopBehind .conditionalNotAllowed rfl ⟨[], condition, hplain ts _ hcondition⟩
        fun d _ heq => ?_
      simp only [heq, if_pos hquestion, if_neg hallowed]
      cases d.advance <;> rfl
  · exact .done (hplain ts condition hcondition) fun d _ heq => by
      simp only [heq, if_neg hquestion]

end

/-- A reader without depth fails at once, for a reason that says nothing about phrases. -/
theorem judges_tooDeep {phrase : List Token → Expr → Prop} :
    Judges phrase fun c => c.fail .tooDeep :=
  fun _ _ => .stop .tooDeep rfl (fun hreason => absurd rfl hreason) fun _ _ _ => rfl

/-- At every depth an expression is read by a reader that decides by what it has read, and so is
what stands behind an operator in front. -/
theorem definite_expression (options : ParserOptions) (depth : Nat) :
    Definite options .expression (depth + 1) (expression options depth) ∧
      Definite options .operand depth (innerOperand options depth) := by
  induction depth with
  | zero =>
    obtain ⟨hexpression, hinner⟩ := sound_expression options 0
    exact ⟨⟨hexpression, judges_tooDeep⟩, ⟨hinner, judges_tooDeep⟩⟩
  | succ depth ih =>
    obtain ⟨hexpression, hinner⟩ := ih
    have hoperand := definite_unary hexpression hinner
    exact ⟨definite_conditional hexpression hoperand, hoperand⟩

end Parser

end ExprLang
