import ExprLang.Proofs.Grammar

/-!
# The parser reads phrases of the grammar

What a parser takes from the front of a stream is a phrase that the grammar derives, within the
nesting that is left.  Every reader of the parser is shown to be sound if the readers that it calls
are, so the development follows the parser's own functions from the tightest level to the loosest.

* `Consumes` — the tokens between two cursors of one stream.
* `Justified` — what a reader says about the front of a stream is right; `Justified.token`,
  `Justified.expect` and `Justified.expr` are the steps that readers consist of.
* `Sound` — a reader reads phrases of a level below a limit of nesting, and fails with a lexical
  error only if that is how its stream ends.
* `sound_expression` — the readers of expressions are sound, at every depth.
-/

namespace ExprLang

/-- From a cursor past a list of tokens, none of which ends the stream, to another cursor. -/
inductive Consumes : Cursor → List Token → Cursor → Prop where
  | refl (c : Cursor) : Consumes c [] c
  | step {c c' c'' : Cursor} {ts : List Token} :
    c.current.type ≠ .eof → c.advance = .ok c' → Consumes c' ts c'' →
    Consumes c (c.current :: ts) c''

namespace Consumes

variable {c c' c'' : Cursor} {ts us : List Token} {t : Token}

theorem trans (h : Consumes c ts c') (h' : Consumes c' us c'') : Consumes c (ts ++ us) c'' := by
  induction h with
  | refl => exact h'
  | step htype hadvance _ ih => exact .step htype hadvance (ih h')

theorem single (htype : c.current.type ≠ .eof) (h : c.advance = .ok c') :
    Consumes c [c.current] c' :=
  .step htype h (.refl c')

theorem nil_iff : Consumes c [] c' ↔ c = c' := by
  constructor
  · intro h; cases h; rfl
  · rintro rfl; exact .refl c

theorem cons_iff : Consumes c (t :: ts) c'' ↔
    c.current = t ∧ t.type ≠ .eof ∧ ∃ c', c.advance = .ok c' ∧ Consumes c' ts c'' := by
  constructor
  · intro h
    cases h with
    | step htype hadvance h => exact ⟨rfl, htype, _, hadvance, h⟩
  · rintro ⟨rfl, htype, c', hadvance, h⟩
    exact .step htype hadvance h

theorem append_iff :
    Consumes c (ts ++ us) c'' ↔ ∃ c', Consumes c ts c' ∧ Consumes c' us c'' := by
  constructor
  · intro h
    induction ts generalizing c with
    | nil => exact ⟨c, .refl c, h⟩
    | cons t ts ih =>
      obtain ⟨rfl, htype, c₁, hadvance, h⟩ := cons_iff.1 h
      obtain ⟨c', hts, hus⟩ := ih h
      exact ⟨c', .step htype hadvance hts, hus⟩
  · rintro ⟨c', hts, hus⟩
    exact hts.trans hus

theorem ne_eof (h : Consumes c ts c') (ht : t ∈ ts) : t.type ≠ .eof := by
  induction h with
  | refl => cases ht
  | step htype _ _ ih =>
    rcases List.mem_cons.1 ht with rfl | ht
    · exact htype
    · exact ih ht

end Consumes

namespace Cursor

variable {c c' : Cursor} {error : SyntaxError}

/-- The errors that may come up behind a cursor: a lexical one only if its stream ends in it. -/
def Excuses (c : Cursor) (error : SyntaxError) : Prop :=
  ∀ lexical, error = .lexical lexical → c.ending = .error lexical

theorem excuses_parse (c : Cursor) (error : ParseError) : c.Excuses (.parse error) := by
  intro lexical h; cases h

theorem pull_ok {tokens : List Token} {ending : Except LexicalError Token}
    (h : pull tokens ending = .ok c) :
    c.ending = ending ∧ (tokens = c.current :: c.rest ∨ tokens = [] ∧ c.rest = []) := by
  unfold pull at h
  split at h
  · cases h; exact ⟨rfl, .inl rfl⟩
  · cases h; exact ⟨rfl, .inr ⟨rfl, rfl⟩⟩
  · cases h

theorem pull_error {tokens : List Token} {ending : Except LexicalError Token}
    (h : pull tokens ending = .error error) :
    ∃ lexical, error = .lexical lexical ∧ ending = .error lexical := by
  unfold pull at h
  split at h
  · cases h
  · cases h
  · cases h; exact ⟨_, rfl, rfl⟩

theorem advance_error (h : c.advance = .error error) : c.Excuses error := by
  unfold advance at h
  split at h
  · cases h
  · obtain ⟨lexical, rfl, hending⟩ := pull_error h
    intro _ hlexical
    cases hlexical
    exact hending

theorem ending_of_advance (h : c.advance = .ok c') : c'.ending = c.ending := by
  unfold advance at h
  split at h
  · cases h; rfl
  · exact (pull_ok h).1

theorem expect_ok {type : TokenType} {reason : ParseReason} (htype : type ≠ .eof)
    (h : c.expect type reason = .ok c') :
    c.current.type = type ∧ Consumes c [c.current] c' := by
  unfold expect at h
  split at h
  · rename_i hcurrent
    exact ⟨hcurrent, .single (hcurrent ▸ htype) h⟩
  · cases h

theorem expect_error {type : TokenType} {reason : ParseReason}
    (h : c.expect type reason = .error error) : c.Excuses error := by
  unfold expect at h
  split at h
  · exact advance_error h
  · cases h; exact excuses_parse _ _

end Cursor

theorem Consumes.ending {c c' : Cursor} {ts : List Token} (h : Consumes c ts c') :
    c'.ending = c.ending := by
  induction h with
  | refl => rfl
  | step _ hadvance _ ih => rw [ih, Cursor.ending_of_advance hadvance]

theorem Consumes.excuses {c c' : Cursor} {ts : List Token} {error : SyntaxError}
    (h : Consumes c ts c') (he : c'.Excuses error) : c.Excuses error := by
  intro lexical herror
  rw [← h.ending]
  exact he lexical herror

/-- What a reader says about the front of a stream is right if it names a phrase there, or an error
that may come up there. -/
def Justified {α : Type} (phrase : List Token → α → Prop) (c : Cursor) :
    Except SyntaxError (α × Cursor) → Prop
  | .ok (a, c') => ∃ ts, Consumes c ts c' ∧ phrase ts a
  | .error error => c.Excuses error

/-- A reader that is right about every stream. -/
def ReadsOnly {α : Type} (phrase : List Token → α → Prop) (p : Parser α) : Prop :=
  ∀ c, Justified phrase c (p c)

/-- A reader of phrases of a level with a nesting below a limit. -/
def Sound (options : ParserOptions) (level : Level) (limit : Nat) (p : Parser Expr) : Prop :=
  ReadsOnly (fun ts e => ∃ n < limit, Derives options level ts e n) p

section

variable {α : Type} {phrase : List Token → α → Prop} {p : Parser α} {c c' : Cursor} {a : α}

theorem ReadsOnly.ok (h : ReadsOnly phrase p) (hp : p c = .ok (a, c')) :
    ∃ ts, Consumes c ts c' ∧ phrase ts a := by
  have := h c
  rwa [hp] at this

theorem ReadsOnly.error {error : SyntaxError} (h : ReadsOnly phrase p)
    (hp : p c = .error error) : c.Excuses error := by
  have := h c
  rwa [hp] at this

theorem Justified.error {error : SyntaxError} (h : c.Excuses error) :
    Justified phrase c (.error error) :=
  h

/-- What is right behind some tokens is right in front of them. -/
theorem Justified.behind {α' : Type} {phrase' : List Token → α' → Prop} {ts : List Token}
    {r : Except SyntaxError (α' × Cursor)} (hts : Consumes c ts c')
    (h : Justified (fun us => phrase' (ts ++ us)) c' r) : Justified phrase' c r := by
  match r, h with
  | .ok (b, c''), ⟨us, hus, hphrase⟩ => exact ⟨ts ++ us, hts.trans hus, hphrase⟩
  | .error error, h => exact hts.excuses h

theorem Justified.fail (reason : ParseReason) : Justified phrase c (c.fail reason) :=
  c.excuses_parse _

/-- A reader that takes the next token and goes on behind it. -/
theorem Justified.token {q : Parser α} (htype : c.current.type ≠ .eof)
    (h : ∀ c₁, Justified (fun us => phrase (c.current :: us)) c₁ (q c₁)) :
    Justified phrase c (match c.advance with
      | .error error => .error error
      | .ok c₁ => q c₁) := by
  split
  · rename_i herror
    exact .error (Cursor.advance_error herror)
  · rename_i c₁ hadvance
    exact .behind (.single htype hadvance) (h c₁)

/-- A reader that needs a token of a type next and goes on behind it. -/
theorem Justified.expect {type : TokenType} {reason : ParseReason} {q : Parser α}
    (htype : type ≠ .eof)
    (h : c.current.type = type → ∀ c₁, Justified (fun us => phrase (c.current :: us)) c₁ (q c₁)) :
    Justified phrase c (match c.expect type reason with
      | .error error => .error error
      | .ok c₁ => q c₁) := by
  split
  · rename_i herror
    exact .error (Cursor.expect_error herror)
  · rename_i c₁ hexpect
    obtain ⟨hcurrent, hconsumes⟩ := Cursor.expect_ok htype hexpect
    exact .behind hconsumes (h hcurrent c₁)

/-- A reader that goes on behind an expression. -/
theorem Justified.expr {phrase' : List Token → Expr → Prop} {p : Parser Expr} {q : Expr → Parser α}
    (hp : ReadsOnly phrase' p)
    (h : ∀ ts e c₁, phrase' ts e → Justified (fun us => phrase (ts ++ us)) c₁ (q e c₁)) :
    Justified phrase c (match p c with
      | .error error => .error error
      | .ok (e, c₁) => q e c₁) := by
  split
  · rename_i herror
    exact .error (hp.error herror)
  · rename_i e c₁ hok
    obtain ⟨ts, hts, hphrase⟩ := hp.ok hok
    exact .behind hts (h ts e c₁ hphrase)

end

namespace Parser

variable {options : ParserOptions} {level next : Level} {limit : Nat} {c c' : Cursor}

/-! ## Operators -/

/-- The operators of a level by token type, as the parser looks them up. -/
def operatorOf? : Level → TokenType → Option BinaryOperator
  | .disjunction => orOperator?
  | .conjunction => andOperator?
  | .equality => equalityOperator?
  | .relation => relationalOperator?
  | .sum => additiveOperator?
  | .product => multiplicativeOperator?
  | _ => fun _ => none

theorem operatorOf?_eq_some_iff {type : TokenType} {operator : BinaryOperator} :
    operatorOf? level type = some operator ↔ (type, operator) ∈ level.operators := by
  cases level <;> cases type <;>
    simp [operatorOf?, Level.operators, orOperator?, andOperator?, equalityOperator?,
      relationalOperator?, additiveOperator?, multiplicativeOperator?, eq_comm]

theorem equalityOperator?_eq_some_iff {type : TokenType} {operator : BinaryOperator} :
    equalityOperator? type = some operator ↔ (type, operator) ∈ Level.equality.operators :=
  @operatorOf?_eq_some_iff .equality type operator

theorem operatorOf?_ne_eof {type : TokenType} {operator : BinaryOperator}
    (h : operatorOf? level type = some operator) : type ≠ .eof := by
  rintro rfl
  cases level <;> cases h

theorem unaryOperator?_eq_some_iff {type : TokenType} {operator : UnaryOperator} :
    unaryOperator? type = some operator ↔ (type, operator) ∈ frontOperators := by
  cases type <;> simp [unaryOperator?, frontOperators, eq_comm]

theorem allowsOperator_iff {operator : BinaryOperator} :
    allowsOperator options operator = true ↔ Permitted options operator := by
  cases operator <;> simp [allowsOperator, Permitted]

theorem takeOperator_ok {operator : BinaryOperator} (htype : c.current.type ≠ .eof)
    (h : takeOperator options operator c = .ok c') :
    Consumes c [c.current] c' ∧ Permitted options operator := by
  unfold takeOperator at h
  split at h
  · cases h
  · rename_i c₁ hadvance
    split at h
    · rename_i hallowed
      cases h
      exact ⟨.single htype hadvance, allowsOperator_iff.1 hallowed⟩
    · cases h

theorem takeOperator_error {operator : BinaryOperator} {error : SyntaxError}
    (h : takeOperator options operator c = .error error) : c.Excuses error := by
  unfold takeOperator at h
  split at h
  · rename_i hadvance
    cases h
    exact Cursor.advance_error hadvance
  · split at h
    · cases h
    · cases h; exact c.excuses_parse _

theorem justified_takeOperator {phrase : List Token → Expr → Prop} {operator : BinaryOperator}
    {q : Parser Expr} (hoperator : operatorOf? level c.current.type = some operator)
    (h : Permitted options operator →
      ∀ c₁, Justified (fun us => phrase (c.current :: us)) c₁ (q c₁)) :
    Justified phrase c (match takeOperator options operator c with
      | .error error => .error error
      | .ok c₁ => q c₁) := by
  split
  · rename_i herror
    exact .error (takeOperator_error herror)
  · rename_i c₁ hsign
    obtain ⟨hsign, hpermitted⟩ := takeOperator_ok (operatorOf?_ne_eof hoperator) hsign
    exact .behind hsign (h hpermitted c₁)

/-! ## Chains of operators -/

/-- The loop over the operators of a level extends a phrase of that level. -/
theorem justified_chainTail {operand : Parser Expr} (htighter : level.tighter? = some next)
    (hchains : level.leftOperand = level) (h : Sound options next limit operand)
    (steps : Nat) {ts : List Token} {left : Expr} {n : Nat} (hn : n < limit)
    (hleft : Derives options level ts left n) (c : Cursor) :
    Justified (fun us e => ∃ n < limit, Derives options level (ts ++ us) e n) c
      (chainTail options (operatorOf? level) operand steps left c) := by
  induction steps generalizing ts left n c with
  | zero => exact ⟨[], .refl c, n, hn, by simpa using hleft⟩
  | succ steps ih =>
    unfold chainTail
    split
    · exact ⟨[], .refl c, n, hn, by simpa using hleft⟩
    · rename_i operator hoperator
      refine justified_takeOperator hoperator fun hpermitted c₁ => .expr h ?_
      rintro us right c₂ ⟨m, hm, hright⟩
      have hbinary := Derives.binary htighter (operatorOf?_eq_some_iff.1 hoperator)
        hpermitted (hchains.symm ▸ hleft) hright
      simpa using ih (Nat.max_lt.2 ⟨hn, hm⟩) hbinary c₂

theorem sound_chain (level : Level) {operand : Parser Expr} (htighter : level.tighter? = some next)
    (hchains : level.leftOperand = level) (h : Sound options next limit operand) :
    Sound options level limit (chain options (operatorOf? level) operand) := by
  intro c
  unfold chain
  refine .expr h ?_
  rintro ts left c₁ ⟨n, hn, hleft⟩
  split
  · exact justified_chainTail htighter hchains h _ hn (.lift htighter hleft) c₁
  · exact ⟨[], .refl c₁, n, hn, by simpa using .lift htighter hleft⟩

theorem sound_equality {operand : Parser Expr} (h : Sound options .relation limit operand) :
    Sound options .equality limit (equality options operand) := by
  intro c
  unfold equality
  refine .expr h ?_
  rintro ts left c₁ ⟨m, hm, hleft⟩
  split
  · exact ⟨[], .refl c₁, m, hm, by simpa using .lift rfl hleft⟩
  · rename_i operator hoperator
    have hsome : operatorOf? .equality c₁.current.type = some operator := hoperator
    refine justified_takeOperator hsome fun hpermitted c₂ => .expr h ?_
    rintro us right c₃ ⟨n, hn, hright⟩
    split
    · exact .fail _
    · have hbinary : Derives options .equality _ (.binary operator left right) _ :=
        .binary rfl (equalityOperator?_eq_some_iff.1 hoperator) hpermitted hleft hright
      exact ⟨[], .refl c₃, max m n, Nat.max_lt.2 ⟨hm, hn⟩, by simpa using hbinary⟩

/-! ## Primary expressions -/

/-- Arguments with commas between them, each below a limit of nesting. -/
def ArgumentList (options : ParserOptions) (limit : Nat) (ts : List Token) (args : List Expr) :
    Prop :=
  ∃ phrases : List Phrase, phrases.map Phrase.tree = args ∧
    Separated (phrases.map Phrase.tokens) ts ∧
    ∀ p ∈ phrases, p.nesting < limit ∧ Derives options .expression p.tokens p.tree p.nesting

/-- Behind a first argument: what it takes to make the list of all arguments. -/
def ArgumentTail (options : ParserOptions) (limit : Nat) (ts : List Token) (args : List Expr) :
    Prop :=
  ∃ phrases : List Phrase, phrases.map Phrase.tree = args ∧
    (∀ us, Separated (us :: phrases.map Phrase.tokens) (us ++ ts)) ∧
    ∀ p ∈ phrases, p.nesting < limit ∧ Derives options .expression p.tokens p.tree p.nesting

theorem ArgumentTail.nil : ArgumentTail options limit [] [] :=
  ⟨[], rfl, fun us => by simpa using .single, by simp⟩

theorem ArgumentTail.cons {comma : Token} (ts : List Token) {us : List Token} {e : Expr} {n : Nat}
    {args : List Expr} (hcomma : comma.type = .comma) (hn : n < limit)
    (he : Derives options .expression ts e n) (h : ArgumentTail options limit us args) :
    ArgumentTail options limit (comma :: (ts ++ us)) (e :: args) := by
  obtain ⟨phrases, rfl, hseparated, hall⟩ := h
  refine ⟨⟨ts, e, n⟩ :: phrases, rfl, fun vs => .cons hcomma (hseparated ts), ?_⟩
  intro p hp
  rcases List.mem_cons.1 hp with rfl | hp
  · exact ⟨hn, he⟩
  · exact hall p hp

theorem ArgumentTail.toList {ts us : List Token} {e : Expr} {n : Nat} {args : List Expr}
    (hn : n < limit) (he : Derives options .expression ts e n)
    (h : ArgumentTail options limit us args) :
    ArgumentList options limit (ts ++ us) (e :: args) := by
  obtain ⟨phrases, rfl, hseparated, hall⟩ := h
  refine ⟨⟨ts, e, n⟩ :: phrases, rfl, hseparated ts, ?_⟩
  intro p hp
  rcases List.mem_cons.1 hp with rfl | hp
  · exact ⟨hn, he⟩
  · exact hall p hp

section

variable {nested : Parser Expr}

theorem readsOnly_argumentsTail (h : Sound options .expression limit nested) (steps : Nat) :
    ReadsOnly (ArgumentTail options limit) (argumentsTail nested steps) := by
  induction steps with
  | zero => exact fun c => ⟨[], .refl c, .nil⟩
  | succ steps ih =>
    intro c
    unfold argumentsTail
    split
    · rename_i hcomma
      refine .token (by rw [hcomma]; decide) fun c₁ => .expr h ?_
      rintro ts argument c₂ ⟨n, hn, hd⟩
      split
      · rename_i herror
        exact .error (ih.error herror)
      · rename_i arguments c₃ harguments
        obtain ⟨us, hus, htail⟩ := ih.ok harguments
        exact ⟨us, hus, .cons ts hcomma hn hd htail⟩
    · exact ⟨[], .refl c, .nil⟩

theorem readsOnly_arguments (h : Sound options .expression limit nested) :
    ReadsOnly (ArgumentList options limit) (arguments nested) := by
  intro c
  unfold arguments
  split
  · exact ⟨[], .refl c, [], rfl, .nil, by simp⟩
  · refine .expr h ?_
    rintro ts first c₁ ⟨n, hn, hd⟩
    split
    · rename_i herror
      exact .error ((readsOnly_argumentsTail h _).error herror)
    · rename_i others c₂ hothers
      obtain ⟨us, hus, htail⟩ := (readsOnly_argumentsTail h _).ok hothers
      exact ⟨us, hus, htail.toList hn hd⟩

theorem deepest_lt {nestings : List Nat} (hlimit : 0 < limit) (h : ∀ n ∈ nestings, n < limit) :
    deepest nestings < limit := by
  have hle : deepest nestings ≤ limit - 1 :=
    deepest_le_iff.2 fun n hn => Nat.le_sub_one_of_lt (h n hn)
  omega

/-- Behind the token of a callee. -/
theorem justified_call {name : Token} {qualifier : Option Text} {function : Text}
    (hlimit : 0 < limit) (h : Sound options .expression limit nested)
    (hname : Callee name qualifier function) (c : Cursor) :
    Justified (fun us e => ∃ n < limit, Derives options .primary ([name] ++ us) e n) c
      (call nested qualifier function c) := by
  unfold call
  refine .expect (by decide) fun hleft c₁ => ?_
  split
  · rename_i herror
    exact .error ((readsOnly_arguments h).error herror)
  · rename_i args c₂ hargs
    obtain ⟨body, hbody, phrases, rfl, hseparated, hall⟩ := (readsOnly_arguments h).ok hargs
    refine .behind hbody (.expect (by decide) fun hright c₃ => ?_)
    have hcall := Derives.call hname hleft hright hseparated fun p hp => (hall p hp).2
    refine ⟨[], .refl c₃, _, deepest_lt hlimit fun n hn => ?_, by simpa using hcall⟩
    obtain ⟨p, hp, rfl⟩ := List.mem_map.1 hn
    exact (hall p hp).1

theorem justified_group {left : Token} (hleft : left.type = .leftParen)
    (h : Sound options .expression limit nested) (c : Cursor) :
    Justified (fun us e => ∃ n < limit, Derives options .primary ([left] ++ us) e n) c
      (group nested c) := by
  unfold group
  refine .expr h ?_
  rintro ts inner c₁ ⟨n, hn, hd⟩
  refine .expect (by decide) fun hright c₂ => ⟨[], .refl c₂, n, hn, ?_⟩
  simpa using Derives.group hleft hright hd

theorem justified_named {token : Token} {name : Text} (hname : token.content = .identifier name)
    (hlimit : 0 < limit) (h : Sound options .expression limit nested) (c : Cursor) :
    Justified (fun us e => ∃ n < limit, Derives options .primary ([token] ++ us) e n) c
      (named nested name c) := by
  unfold named
  split
  · exact justified_call hlimit h (.simple hname) c
  · exact ⟨[], .refl c, 0, hlimit, .identifier hname⟩

theorem sound_primary (hlimit : 0 < limit) (h : Sound options .expression limit nested) :
    Sound options .primary limit (primary nested) := by
  intro c
  unfold primary
  split
  · rename_i hcontent
    exact .token (Token.type_ne_eof hcontent nofun) fun c₁ =>
      ⟨[], .refl c₁, 0, hlimit, .literal hcontent⟩
  · rename_i hcontent
    exact .token (Token.type_ne_eof hcontent nofun) (justified_named hcontent hlimit h)
  · rename_i hcontent
    exact .token (Token.type_ne_eof hcontent nofun)
      (justified_call hlimit h (.qualified hcontent))
  · rename_i hcontent
    exact .token (Token.type_ne_eof hcontent nofun)
      (justified_group (Token.type_eq hcontent) h)
  all_goals exact .fail _

/-! ## Members and indices -/

theorem readsOnly_memberName :
    ReadsOnly (fun ts name => ∃ token : Token, ts = [token] ∧ token.content = .identifier name)
      memberName := by
  intro c
  unfold memberName
  split
  · rename_i hcontent
    exact .token (Token.type_ne_eof hcontent nofun) fun c₁ => ⟨[], .refl c₁, _, rfl, hcontent⟩
  · exact .fail _

theorem readsOnly_indexKey (h : Sound options .expression limit nested) :
    ReadsOnly (fun ts key => ∃ us right, ts = us ++ [right] ∧ right.type = .rightBracket ∧
      ∃ n < limit, Derives options .expression us key n) (indexKey nested) := by
  intro c
  unfold indexKey
  refine .expr h ?_
  rintro us key c₁ ⟨n, hn, hd⟩
  exact .expect (by decide) fun hright c₂ => ⟨[], .refl c₂, us, _, rfl, hright, n, hn, hd⟩

/-- The loop over members and indices extends a phrase of their level. -/
theorem justified_accessTail (h : Sound options .expression limit nested) (steps : Nat)
    {ts : List Token} {base : Expr} {n : Nat} (hn : n < limit)
    (hbase : Derives options .access ts base n) (c : Cursor) :
    Justified (fun us e => ∃ n < limit, Derives options .access (ts ++ us) e n) c
      (accessTail nested steps base c) := by
  induction steps generalizing ts base n c with
  | zero => exact ⟨[], .refl c, n, hn, by simpa using hbase⟩
  | succ steps ih =>
    unfold accessTail
    split
    · rename_i hdot
      refine .token (by rw [hdot]; decide) fun c₁ => ?_
      split
      · rename_i herror
        exact .error (readsOnly_memberName.error herror)
      · rename_i name c₂ hname
        obtain ⟨_, hus, token, rfl, hcontent⟩ := readsOnly_memberName.ok hname
        refine .behind hus ?_
        simpa using ih hn (.member hdot hcontent hbase) c₂
    · rename_i hleft
      refine .token (by rw [hleft]; decide) fun c₁ => .expr (readsOnly_indexKey h) ?_
      rintro _ key c₂ ⟨us, right, rfl, hright, m, hm, hkey⟩
      simpa using ih (Nat.max_lt.2 ⟨hn, hm⟩) (.index hleft hright hbase hkey) c₂
    · exact .fail _
    · exact ⟨[], .refl c, n, hn, by simpa using hbase⟩

theorem sound_access (hlimit : 0 < limit) (h : Sound options .expression limit nested) :
    Sound options .access limit (access nested) := by
  intro c
  unfold access
  refine .expr (sound_primary hlimit h) ?_
  rintro ts base c₁ ⟨n, hn, hbase⟩
  split
  · exact justified_accessTail h _ hn (.lift rfl hbase) c₁
  · exact ⟨[], .refl c₁, n, hn, by simpa using .lift rfl hbase⟩

/-! ## Expressions -/

theorem sound_unary {inner : Parser Expr} (h : Sound options .expression (limit + 1) nested)
    (hinner : Sound options .operand limit inner) :
    Sound options .operand (limit + 1) (unary inner nested) := by
  intro c
  unfold unary
  split
  · have hjustified := sound_access (Nat.succ_pos _) h c
    revert hjustified
    cases access nested c with
    | error error => exact id
    | ok result =>
      rintro ⟨ts, hts, n, hn, hd⟩
      exact ⟨ts, hts, n, hn, .lift rfl hd⟩
  · rename_i operator hoperator
    rw [unaryOperator?_eq_some_iff] at hoperator
    have hne : c.current.type ≠ .eof := by
      intro heof
      rw [heof] at hoperator
      exact absurd hoperator (by simp [frontOperators])
    refine .token hne fun c₁ => .expr hinner ?_
    rintro ts operand c₂ ⟨n, hn, hd⟩
    exact ⟨[], .refl c₂, n + 1, Nat.succ_lt_succ hn, by simpa using .unary hoperator hd⟩

theorem sound_disjunction {operand : Parser Expr} (h : Sound options .operand limit operand) :
    Sound options .disjunction limit (disjunction options operand) :=
  sound_chain .disjunction rfl rfl <|
  sound_chain .conjunction rfl rfl <|
  sound_equality <|
  sound_chain .relation rfl rfl <|
  sound_chain .sum rfl rfl <|
  sound_chain .product rfl rfl h

theorem justified_branches {ts : List Token} {question : Token} {condition : Expr} {k : Nat}
    (hk : k < limit) (hallowed : options.conditionalAllowed = true)
    (hquestion : question.type = .question)
    (hcondition : Derives options .disjunction ts condition k)
    (h : Sound options .expression limit nested) (c : Cursor) :
    Justified (fun us e => ∃ n < limit + 1, Derives options .expression (ts ++ question :: us) e n)
      c (branches nested condition c) := by
  unfold branches
  refine .expr h ?_
  rintro us thenBranch c₁ ⟨m, hm, hthen⟩
  refine .expect (by decide) fun hcolon c₂ => .expr h ?_
  rintro vs elseBranch c₃ ⟨n, hn, helse⟩
  have hconditional := Derives.conditional hallowed hquestion hcolon hcondition hthen helse
  refine ⟨[], .refl c₃, _, ?_, by simpa using hconditional⟩
  omega

theorem sound_conditional {operand : Parser Expr} (h : Sound options .expression limit nested)
    (hoperand : Sound options .operand limit operand) :
    Sound options .expression (limit + 1) (conditional options nested operand) := by
  intro c
  unfold conditional
  refine .expr (sound_disjunction hoperand) ?_
  rintro ts condition c₁ ⟨k, hk, hcondition⟩
  split
  · rename_i hquestion
    split
    · rename_i herror
      exact .error (Cursor.advance_error herror)
    · rename_i c₂ hadvance
      -- the option counts only once the token behind the question mark has been read
      split
      · rename_i hallowed
        refine .behind (.single (by rw [hquestion]; decide) hadvance) ?_
        exact justified_branches hk hallowed hquestion hcondition h c₂
      · exact .fail _
  · exact ⟨[], .refl c₁, k + 1, Nat.succ_lt_succ hk, by simpa using .plain hcondition⟩

end

/-- At every depth an expression is read soundly, and so is what stands behind an operator in
front. -/
theorem sound_expression (options : ParserOptions) (depth : Nat) :
    Sound options .expression (depth + 1) (expression options depth) ∧
      Sound options .operand depth (innerOperand options depth) := by
  induction depth with
  | zero =>
    refine ⟨fun c => ?_, fun c => ?_⟩
    · unfold expression; exact .fail _
    · unfold innerOperand; exact .fail _
  | succ depth ih =>
    obtain ⟨hexpression, hinner⟩ := ih
    have hoperand := sound_unary hexpression hinner
    refine ⟨fun c => ?_, fun c => ?_⟩
    · unfold expression; exact sound_conditional hexpression hoperand c
    · unfold innerOperand; exact hoperand c

end Parser

end ExprLang
