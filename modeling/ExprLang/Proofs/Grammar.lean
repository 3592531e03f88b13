import ExprLang.Expr.Parser

/-!
# The grammar of expressions

The grammar as a relation between a list of tokens and the tree that it stands for, with the
nesting that the derivation needs.  It is written down on its own, level by level, and knows
nothing of look-ahead, cursors or the order in which a parser decides.

* `Derives` — the rules.  Nesting is one for every expression, the whole one included, and one for
  every operator in front of an operand; side by side the larger nesting counts.
* `Derives.starts`, `Derives.ne_eof` — the first token of a phrase, and what none of its tokens is.
* `Derives.loosen` — a phrase belongs to the looser levels too.
* `deepest_le_iff` — the nesting of arguments is bounded if that of each one is.
-/

namespace ExprLang

/-- The levels of the grammar, from the loosest to the tightest. -/
inductive Level where
  | expression
  | disjunction
  | conjunction
  | equality
  | relation
  | sum
  | product
  | operand
  | access
  | primary
  deriving DecidableEq, Repr

namespace Level

/-- The next level below, a phrase of which is a phrase of this level too.  A whole expression is
no such level, because it is nested. -/
def tighter? : Level → Option Level
  | .expression => none
  | .disjunction => some .conjunction
  | .conjunction => some .equality
  | .equality => some .relation
  | .relation => some .sum
  | .sum => some .product
  | .product => some .operand
  | .operand => some .access
  | .access => some .primary
  | .primary => none

/-- The binary operators of a level, by the tokens that stand for them. -/
def operators : Level → List (TokenType × BinaryOperator)
  | .disjunction => [(.or, .or)]
  | .conjunction => [(.and, .and)]
  | .equality => [(.eq, .eq), (.neq, .ne), (.wildcard, .wildcard)]
  | .relation => [(.lt, .lt), (.lte, .le), (.gt, .gt), (.gte, .ge)]
  | .sum => [(.plus, .add), (.minus, .subtract), (.join, .join)]
  | .product => [(.multiply, .multiply), (.divide, .divide), (.modulo, .modulo)]
  | _ => []

/-- The level on the left of an operator.  Equality is the level that does not chain. -/
def leftOperand : Level → Level
  | .equality => .relation
  | level => level

end Level

/-- The operators in front of an operand, by the tokens that stand for them. -/
def frontOperators : List (TokenType × UnaryOperator) :=
  [(.not, .not), (.minus, .negate), (.empty, .empty)]

/-- Whether the options let an operator belong to the language. -/
def Permitted (options : ParserOptions) (operator : BinaryOperator) : Prop :=
  (operator = .wildcard → options.matchAllowed = true) ∧
    (operator = .join → options.joinAllowed = true)

/-- A list of tokens with the tree that it stands for and the nesting that this needs. -/
structure Phrase where
  tokens : List Token
  tree : Expr
  nesting : Nat

/-- The largest of some numbers, zero if there is none. -/
def deepest (nestings : List Nat) : Nat :=
  nestings.foldr max 0

/-- Lists of tokens one after another, with a comma between neighbours. -/
inductive Separated : List (List Token) → List Token → Prop where
  | nil : Separated [] []
  | single {ts : List Token} : Separated [ts] ts
  | cons {ts us vs : List Token} {rest : List (List Token)} {comma : Token} :
    comma.type = .comma → Separated (us :: rest) vs →
    Separated (ts :: us :: rest) (ts ++ comma :: vs)

/-- The function that a token names in front of its arguments. -/
inductive Callee : Token → Option Text → Text → Prop where
  | simple {token : Token} {name : Text} :
    token.content = .identifier name → Callee token none name
  | qualified {token : Token} {qualifier name : Text} :
    token.content = .qualifiedName qualifier name → Callee token (some qualifier) name

/-- The rules of the grammar: `Derives options level ts e n` says that `ts` is a phrase of the level
that stands for the tree `e` and needs the nesting `n`. -/
inductive Derives (options : ParserOptions) : Level → List Token → Expr → Nat → Prop where
  | plain {ts : List Token} {e : Expr} {n : Nat} :
    Derives options .disjunction ts e n → Derives options .expression ts e (n + 1)
  | conditional {ts us vs : List Token} {question colon : Token} {c t e : Expr} {k m n : Nat} :
    options.conditionalAllowed = true → question.type = .question → colon.type = .colon →
    Derives options .disjunction ts c k → Derives options .expression us t m →
    Derives options .expression vs e n →
    Derives options .expression (ts ++ question :: (us ++ colon :: vs)) (.conditional c t e)
      (max k (max m n) + 1)
  | lift {level next : Level} {ts : List Token} {e : Expr} {n : Nat} :
    level.tighter? = some next → Derives options next ts e n → Derives options level ts e n
  | binary {level next : Level} {ts us : List Token} {sign : Token} {operator : BinaryOperator}
      {l r : Expr} {m n : Nat} :
    level.tighter? = some next → (sign.type, operator) ∈ level.operators →
    Permitted options operator →
    Derives options level.leftOperand ts l m → Derives options next us r n →
    Derives options level (ts ++ sign :: us) (.binary operator l r) (max m n)
  | unary {ts : List Token} {sign : Token} {operator : UnaryOperator} {e : Expr} {n : Nat} :
    (sign.type, operator) ∈ frontOperators → Derives options .operand ts e n →
    Derives options .operand (sign :: ts) (.unary operator e) (n + 1)
  | member {ts : List Token} {dot token : Token} {name : Text} {e : Expr} {n : Nat} :
    dot.type = .dot → token.content = .identifier name → Derives options .access ts e n →
    Derives options .access (ts ++ [dot, token]) (.member e name) n
  | index {ts us : List Token} {left right : Token} {e k : Expr} {m n : Nat} :
    left.type = .leftBracket → right.type = .rightBracket →
    Derives options .access ts e m → Derives options .expression us k n →
    Derives options .access (ts ++ left :: (us ++ [right])) (.index e k) (max m n)
  | literal {token : Token} {type : TokenType} {value : Value} {isLiteral : type.isLiteral = true} :
    token.content = .literal type value isLiteral →
    Derives options .primary [token] (.literal value) 0
  | identifier {token : Token} {name : Text} :
    token.content = .identifier name → Derives options .primary [token] (.identifier name) 0
  | call {name left right : Token} {qualifier : Option Text} {function : Text} {body : List Token}
      {arguments : List Phrase} :
    Callee name qualifier function → left.type = .leftParen → right.type = .rightParen →
    Separated (arguments.map Phrase.tokens) body →
    (∀ p ∈ arguments, Derives options .expression p.tokens p.tree p.nesting) →
    Derives options .primary (name :: left :: (body ++ [right]))
      (.call qualifier function (arguments.map Phrase.tree))
      (deepest (arguments.map Phrase.nesting))
  | group {ts : List Token} {left right : Token} {e : Expr} {n : Nat} :
    left.type = .leftParen → right.type = .rightParen → Derives options .expression ts e n →
    Derives options .primary (left :: (ts ++ [right])) e n

/-! ## Tokens of a phrase -/

namespace Level

/-- The types of the tokens that a phrase may start with. -/
def starters : Level → List TokenType
  | .access | .primary =>
    [.number, .string, .boolean, .null, .identifier, .qualifiedName, .leftParen]
  | _ =>
    [.number, .string, .boolean, .null, .identifier, .qualifiedName, .leftParen, .not, .minus,
      .empty]

theorem starters_tighter {level next : Level} (h : level.tighter? = some next) :
    next.starters ⊆ level.starters := by
  cases level <;> cases h <;> decide

theorem mem_starters_of_isLiteral {type : TokenType} (h : type.isLiteral = true) :
    type ∈ Level.primary.starters := by
  cases type <;> first | decide | cases h

theorem starters_leftOperand (level : Level) : level.leftOperand.starters ⊆ level.starters := by
  cases level <;> decide

end Level

theorem Derives.starts {options : ParserOptions} {level : Level} {ts : List Token} {e : Expr}
    {n : Nat} (h : Derives options level ts e n) :
    ∃ t us, ts = t :: us ∧ t.type ∈ level.starters := by
  induction h with
  | plain _ ih => exact ih
  | conditional _ _ _ _ _ _ ih _ _ =>
    obtain ⟨t, us, rfl, ht⟩ := ih
    exact ⟨t, _, rfl, ht⟩
  | lift htighter _ ih =>
    obtain ⟨t, us, rfl, ht⟩ := ih
    exact ⟨t, us, rfl, Level.starters_tighter htighter ht⟩
  | binary _ _ _ _ _ ih _ =>
    obtain ⟨t, us, rfl, ht⟩ := ih
    exact ⟨t, _, rfl, Level.starters_leftOperand _ ht⟩
  | unary hsign _ _ =>
    refine ⟨_, _, rfl, ?_⟩
    simp only [frontOperators, List.mem_cons, Prod.mk.injEq, List.not_mem_nil, or_false] at hsign
    rcases hsign with ⟨h, -⟩ | ⟨h, -⟩ | ⟨h, -⟩ <;> rw [h] <;> decide
  | member _ _ _ ih | index _ _ _ _ ih _ =>
    obtain ⟨t, us, rfl, ht⟩ := ih
    exact ⟨t, _, rfl, ht⟩
  | @literal _ _ _ hliteral hcontent =>
    refine ⟨_, _, rfl, ?_⟩
    rw [Token.type_eq hcontent]
    exact Level.mem_starters_of_isLiteral hliteral
  | identifier hcontent =>
    refine ⟨_, _, rfl, ?_⟩
    rw [Token.type_eq hcontent, TokenContent.type]
    decide
  | call hname _ _ _ _ _ =>
    refine ⟨_, _, rfl, ?_⟩
    cases hname with
    | simple h | qualified h => rw [Token.type_eq h, TokenContent.type]; decide
  | group htype _ _ _ => exact ⟨_, _, rfl, by rw [htype]; decide⟩

theorem Separated.mem {lists : List (List Token)} {body : List Token} (h : Separated lists body)
    {t : Token} (ht : t ∈ body) : t.type = .comma ∨ ∃ ts ∈ lists, t ∈ ts := by
  induction h with
  | nil => cases ht
  | single => exact .inr ⟨_, by simp, ht⟩
  | cons hcomma _ ih =>
    rcases List.mem_append.1 ht with ht | ht
    · exact .inr ⟨_, by simp, ht⟩
    · rcases List.mem_cons.1 ht with rfl | ht
      · exact .inl hcomma
      · rcases ih ht with htype | ⟨us, hus, ht⟩
        · exact .inl htype
        · exact .inr ⟨us, by simp [hus], ht⟩

/-- The end token is part of no phrase. -/
theorem Derives.ne_eof {options : ParserOptions} {level : Level} {ts : List Token} {e : Expr}
    {n : Nat} (h : Derives options level ts e n) {t : Token} (ht : t ∈ ts) : t.type ≠ .eof := by
  induction h with
  | plain _ ih | lift _ _ ih => exact ih ht
  | conditional _ hquestion hcolon _ _ _ ih ih' ih'' =>
    simp only [List.mem_append, List.mem_cons] at ht
    rcases ht with ht | rfl | ht | rfl | ht
    · exact ih ht
    · rw [hquestion]; decide
    · exact ih' ht
    · rw [hcolon]; decide
    · exact ih'' ht
  | @binary level _ _ _ sign operator _ _ _ _ _ hsign _ _ _ ih ih' =>
    simp only [List.mem_append, List.mem_cons] at ht
    rcases ht with ht | rfl | ht
    · exact ih ht
    · have : ∀ entry ∈ level.operators, entry.1 ≠ .eof := by cases level <;> decide
      exact this _ hsign
    · exact ih' ht
  | @unary _ sign operator _ _ hsign _ ih =>
    rcases List.mem_cons.1 ht with rfl | ht
    · have : ∀ entry ∈ frontOperators, entry.1 ≠ .eof := by decide
      exact this _ hsign
    · exact ih ht
  | member hdot hname _ ih =>
    simp only [List.mem_append, List.mem_cons, List.not_mem_nil, or_false] at ht
    rcases ht with ht | rfl | rfl
    · exact ih ht
    · rw [hdot]; decide
    · exact Token.type_ne_eof hname nofun
  | index hleft hright _ _ ih ih' =>
    simp only [List.mem_append, List.mem_cons, List.not_mem_nil, or_false] at ht
    rcases ht with ht | rfl | ht | rfl
    · exact ih ht
    · rw [hleft]; decide
    · exact ih' ht
    · rw [hright]; decide
  | literal hcontent | identifier hcontent =>
    rw [List.mem_singleton.1 ht]
    exact Token.type_ne_eof hcontent nofun
  | call hname hleft hright hseparated _ ih =>
    simp only [List.mem_cons, List.mem_append, List.not_mem_nil, or_false] at ht
    rcases ht with rfl | rfl | ht | rfl
    · cases hname with
      | simple h | qualified h => exact Token.type_ne_eof h nofun
    · rw [hleft]; decide
    · rcases hseparated.mem ht with htype | ⟨us, hus, ht⟩
      · rw [htype]; decide
      · obtain ⟨p, hp, rfl⟩ := List.mem_map.1 hus
        exact ih p hp ht
    · rw [hright]; decide
  | group hleft hright _ ih =>
    simp only [List.mem_cons, List.mem_append, List.not_mem_nil, or_false] at ht
    rcases ht with rfl | ht | rfl
    · rw [hleft]; decide
    · exact ih ht
    · rw [hright]; decide

/-! ## Nesting -/

theorem deepest_le_iff {nestings : List Nat} {limit : Nat} :
    deepest nestings ≤ limit ↔ ∀ n ∈ nestings, n ≤ limit := by
  induction nestings with
  | nil => simp [deepest]
  | cons n nestings ih =>
    rw [deepest, List.foldr_cons, Nat.max_le, List.forall_mem_cons, ← ih, deepest]

/-- A whole expression is a nesting of its own. -/
theorem Derives.nesting_pos {options : ParserOptions} {ts : List Token} {e : Expr} {n : Nat}
    (h : Derives options .expression ts e n) : 0 < n := by
  cases h with
  | plain _ => exact Nat.succ_pos _
  | conditional _ _ _ _ _ _ => exact Nat.succ_pos _
  | lift hnext _ => cases hnext
  | binary hnext _ _ _ _ => cases hnext

/-! ## Levels -/

namespace Level

/-- The place of a level, counted from the loosest one. -/
def rank : Level → Nat
  | .expression => 0
  | .disjunction => 1
  | .conjunction => 2
  | .equality => 3
  | .relation => 4
  | .sum => 5
  | .product => 6
  | .operand => 7
  | .access => 8
  | .primary => 9

theorem rank_injective {level level' : Level} (h : level.rank = level'.rank) : level = level' := by
  cases level <;> cases level' <;> first | rfl | cases h

theorem exists_tighter {level : Level} (hlow : 0 < level.rank) (hhigh : level.rank < 9) :
    ∃ next, level.tighter? = some next ∧ next.rank = level.rank + 1 := by
  cases level with
  | expression => exact absurd hlow (by decide)
  | primary => exact absurd hhigh (by decide)
  | _ => exact ⟨_, rfl, rfl⟩

theorem leftOperand_rank (level : Level) (h : 0 < level.rank) :
    0 < level.leftOperand.rank ∧ level.leftOperand.rank ≤ level.rank + 1 := by
  cases level <;> first | exact absurd h (by decide) | decide

theorem rank_le (level : Level) : level.rank ≤ 9 := by
  cases level <;> decide

end Level

/-- A phrase of a level is a phrase of all looser levels but that of whole expressions. -/
theorem Derives.loosen {options : ParserOptions} {level lower : Level} {ts : List Token} {e : Expr}
    {n : Nat} (h : Derives options lower ts e n) (hlow : 0 < level.rank)
    (hle : level.rank ≤ lower.rank) : Derives options level ts e n := by
  induction hsteps : lower.rank - level.rank generalizing level with
  | zero =>
    have hsame : level = lower := Level.rank_injective (by omega)
    rwa [hsame]
  | succ steps ih =>
    have hlimit := lower.rank_le
    obtain ⟨next, htighter, hrank⟩ := Level.exists_tighter hlow (by omega)
    exact .lift htighter (ih (by omega) (by omega) (by omega))

end ExprLang
