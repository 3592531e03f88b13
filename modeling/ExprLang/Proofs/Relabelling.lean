import ExprLang.Expr.Parser

/-!
# What the parser sees of a token

The parser looks at the content of a token, and at nothing else: its place and its text
only come up again in an error.  So if the tokens of a stream are given other places or other texts,
every reader does the same, and all that changes is the token that an error stands at.

* `Relabelling` — a change to tokens that the parser cannot see.
* `Cursor.relabel`, `SyntaxError.relabel` — the same change to a place in a stream and to an error.
* `BlindMove`, `Blind` — a move in a stream and a reader that do not notice the change; what is put
  together from such moves and readers does not either.
* `blind_expression` — expressions at every depth.
* `parseTokens_relabel` — whole streams.
-/

namespace ExprLang

/-- A change to tokens that keeps their contents. -/
structure Relabelling where
  apply : Token → Token
  content_eq : ∀ t, (apply t).content = t.content

/-- An error at a changed token. -/
def SyntaxError.relabel (f : Relabelling) : SyntaxError → SyntaxError
  | .lexical error => .lexical error
  | .parse error => .parse ⟨error.reason, f.apply error.token⟩

/-- A stream of changed tokens. -/
def TokenStream.relabel (f : Relabelling) (stream : TokenStream) : TokenStream :=
  ⟨stream.tokens.map f.apply, stream.ending.map f.apply⟩

namespace Cursor

/-- A place in a stream of changed tokens. -/
def relabel (f : Relabelling) (c : Cursor) : Cursor :=
  ⟨f.apply c.current, c.rest.map f.apply, c.ending.map f.apply⟩

end Cursor

/-- What becomes of an outcome when the tokens are changed, given what becomes of a result. -/
def relabelled {α : Type} (f : Relabelling) (g : α → α) :
    Except SyntaxError α → Except SyntaxError α
  | .ok a => .ok (g a)
  | .error error => .error (error.relabel f)

/-- A move in a stream to which the change makes no difference. -/
def BlindMove (f : Relabelling) (move : Cursor → Except SyntaxError Cursor) : Prop :=
  ∀ c, move (c.relabel f) = relabelled f (Cursor.relabel f) (move c)

/-- A reader to which the change makes no difference. -/
def Blind {α : Type} (f : Relabelling) (p : Parser α) : Prop :=
  ∀ c, p (c.relabel f) = relabelled f (Prod.map id (Cursor.relabel f)) (p c)

/-! ## Places in a stream -/

namespace Cursor

variable (f : Relabelling) (c : Cursor)

@[simp] theorem relabel_content : (c.relabel f).current.content = c.current.content :=
  f.content_eq c.current

@[simp] theorem relabel_type : (c.relabel f).current.type = c.current.type :=
  Token.type_eq (relabel_content f c)

@[simp] theorem relabel_isAtEnd : (c.relabel f).isAtEnd = c.isAtEnd := by
  rw [isAtEnd, isAtEnd, relabel_type]

@[simp] theorem relabel_remaining : (c.relabel f).remaining = c.remaining := by
  rw [remaining, remaining, relabel_isAtEnd, relabel, List.length_map]

theorem pull_relabel (tokens : List Token) (ending : Except LexicalError Token) :
    pull (tokens.map f.apply) (ending.map f.apply) =
      relabelled f (relabel f) (pull tokens ending) := by
  cases tokens with
  | cons token tokens => rfl
  | nil => cases ending <;> rfl

theorem blind_advance : BlindMove f advance := by
  intro c
  rw [advance, advance, relabel_isAtEnd]
  split
  · rfl
  · exact pull_relabel f c.rest c.ending

theorem blind_expect (type : TokenType) (reason : ParseReason) :
    BlindMove f fun c => c.expect type reason := by
  intro c
  simp only [expect, relabel_type]
  split
  · exact blind_advance f c
  · rfl

end Cursor

/-! ## One reader behind another

Most readers hand on an expression; the lemma for them is about these alone, so that it has the form
of their definitions. -/

section

variable {β : Type} {f : Relabelling} {move : Cursor → Except SyntaxError Cursor} {q : Parser β}

theorem Blind.pure (b : β) : Blind f fun c => .ok (b, c) :=
  fun _ => rfl

theorem BlindMove.andThen (hmove : BlindMove f move) (hq : Blind f q) :
    Blind f fun c => match move c with
      | .error error => .error error
      | .ok c' => q c' := by
  intro c
  simp only [hmove c]
  cases move c with
  | error error => rfl
  | ok c' => exact hq c'

theorem Blind.andThen {p : Parser Expr} {q : Expr → Parser β} (hp : Blind f p)
    (hq : ∀ e, Blind f (q e)) :
    Blind f fun c => match p c with
      | .error error => .error error
      | .ok (e, c') => q e c' := by
  intro c
  simp only [hp c]
  cases p c with
  | error error => rfl
  | ok result => exact hq result.1 result.2

end

namespace Parser

open Cursor

variable {f : Relabelling} {options : ParserOptions} {operator? : TokenType → Option BinaryOperator}
  {operand nested inner : Parser Expr}

/-! ## Chains of operators -/

theorem blind_takeOperator (f : Relabelling) (options : ParserOptions)
    (operator : BinaryOperator) : BlindMove f (takeOperator options operator) := by
  intro c
  rw [takeOperator, takeOperator, blind_advance f c]
  cases c.advance with
  | error error => rfl
  | ok c' =>
    dsimp only [relabelled]
    split <;> rfl

theorem blind_chainTail (h : Blind f operand) (steps : Nat) (left : Expr) :
    Blind f (chainTail options operator? operand steps left) := by
  induction steps generalizing left with
  | zero => exact .pure left
  | succ steps ih =>
    intro c
    rw [chainTail, chainTail, relabel_type]
    split
    · rfl
    · exact (blind_takeOperator f options _).andThen (h.andThen fun right => ih _) c

theorem blind_chain (h : Blind f operand) : Blind f (chain options operator? operand) := by
  refine h.andThen fun left c => ?_
  rw [relabel_type, relabel_remaining]
  split
  · exact blind_chainTail h _ left c
  · rfl

theorem blind_equality (h : Blind f operand) : Blind f (equality options operand) := by
  refine h.andThen fun left c => ?_
  rw [relabel_type]
  split
  · rfl
  · refine (blind_takeOperator f options _).andThen (h.andThen fun right c' => ?_) c
    rw [relabel_type]
    split <;> rfl

/-! ## Primary expressions -/

theorem blind_argumentsTail (h : Blind f nested) (steps : Nat) :
    Blind f (argumentsTail nested steps) := by
  induction steps with
  | zero => exact .pure []
  | succ steps ih =>
    intro c
    rw [argumentsTail, argumentsTail, relabel_type]
    split
    · refine (blind_advance f).andThen (h.andThen fun argument c' => ?_) c
      rw [ih c']
      cases argumentsTail nested steps c' <;> rfl
    · rfl

theorem blind_arguments (h : Blind f nested) : Blind f (arguments nested) := by
  intro c
  rw [arguments, arguments, relabel_type]
  split
  · rfl
  · refine h.andThen (fun first c' => ?_) c
    rw [relabel_remaining, blind_argumentsTail h _ c']
    cases argumentsTail nested c'.remaining c' <;> rfl

theorem blind_call (h : Blind f nested) (qualifier : Option Text) (name : Text) :
    Blind f (call nested qualifier name) := by
  refine (blind_expect f .leftParen .expectedArguments).andThen fun c => ?_
  rw [blind_arguments h c]
  cases arguments nested c with
  | error error => rfl
  | ok result =>
    exact (blind_expect f .rightParen .expectedArgumentsEnd).andThen (.pure _) result.2

theorem blind_named (h : Blind f nested) (name : Text) : Blind f (named nested name) := by
  intro c
  rw [named, named, relabel_type]
  split
  · exact blind_call h none name c
  · rfl

theorem blind_group (h : Blind f nested) : Blind f (group nested) :=
  h.andThen fun inner => (blind_expect f .rightParen .expectedGroupEnd).andThen (.pure inner)

theorem blind_primary (h : Blind f nested) : Blind f (primary nested) := by
  intro c
  rw [primary, primary, relabel_content]
  split
  · exact (blind_advance f).andThen (.pure _) c
  · exact (blind_advance f).andThen (blind_named h _) c
  · exact (blind_advance f).andThen (blind_call h _ _) c
  · exact (blind_advance f).andThen (blind_group h) c
  all_goals rfl

/-! ## Members and indices -/

theorem blind_memberName : Blind f memberName := by
  intro c
  rw [memberName, memberName, relabel_content]
  split
  · exact (blind_advance f).andThen (.pure _) c
  · rfl

theorem blind_indexKey (h : Blind f nested) : Blind f (indexKey nested) :=
  h.andThen fun key => (blind_expect f .rightBracket .expectedIndexEnd).andThen (.pure key)

theorem blind_accessTail (h : Blind f nested) (steps : Nat) (base : Expr) :
    Blind f (accessTail nested steps base) := by
  induction steps generalizing base with
  | zero => exact .pure base
  | succ steps ih =>
    intro c
    rw [accessTail, accessTail, relabel_type]
    split
    · refine (blind_advance f).andThen (fun c' => ?_) c
      rw [blind_memberName c']
      cases memberName c' with
      | error error => rfl
      | ok result => exact ih _ _
    · exact (blind_advance f).andThen ((blind_indexKey h).andThen fun key => ih _) c
    all_goals rfl

theorem blind_access (h : Blind f nested) : Blind f (access nested) := by
  refine (blind_primary h).andThen fun base c => ?_
  rw [relabel_type, relabel_remaining]
  split
  · exact blind_accessTail h _ base c
  · rfl

/-! ## Expressions -/

theorem blind_unary (hinner : Blind f inner) (h : Blind f nested) :
    Blind f (unary inner nested) := by
  intro c
  rw [unary, unary, relabel_type]
  split
  · exact blind_access h c
  · exact (blind_advance f).andThen (hinner.andThen fun operand => .pure _) c

theorem blind_disjunction (h : Blind f operand) : Blind f (disjunction options operand) :=
  blind_chain <| blind_chain <| blind_equality <| blind_chain <| blind_chain <| blind_chain h

theorem blind_branches (h : Blind f nested) (condition : Expr) :
    Blind f (branches nested condition) :=
  h.andThen fun _ => (blind_expect f .colon .expectedColon).andThen <| h.andThen fun _ => .pure _

theorem blind_conditional (h : Blind f nested) (hoperand : Blind f operand) :
    Blind f (conditional options nested operand) := by
  refine (blind_disjunction hoperand).andThen fun condition c => ?_
  rw [relabel_type, blind_advance f c]
  split
  · cases c.advance with
    | error error => rfl
    | ok c' =>
      dsimp only [relabelled]
      split
      · exact blind_branches h condition c'
      · rfl
  · rfl

/-- At every depth, expressions are read alike, and so is what stands behind an operator in
front. -/
theorem blind_expression (f : Relabelling) (options : ParserOptions) (depth : Nat) :
    Blind f (expression options depth) ∧ Blind f (innerOperand options depth) := by
  induction depth with
  | zero => exact ⟨fun _ => rfl, fun _ => rfl⟩
  | succ depth ih =>
    obtain ⟨hexpression, hinner⟩ := ih
    have hoperand := blind_unary hinner hexpression
    refine ⟨fun c => ?_, fun c => ?_⟩
    · unfold expression
      exact blind_conditional hexpression hoperand c
    · unfold innerOperand
      exact hoperand c

end Parser

/-! ## Whole streams -/

/-- The parser does not see the places and the texts of tokens: where it reads a tree, it reads the
same tree of the changed tokens, and where it fails, it does so for the same reason at the changed
token. -/
theorem parseTokens_relabel (f : Relabelling) (options : ParserOptions) (stream : TokenStream) :
    parseTokens options (stream.relabel f) = relabelled f id (parseTokens options stream) := by
  have hstart : Cursor.ofStream (stream.relabel f) =
      relabelled f (Cursor.relabel f) (Cursor.ofStream stream) :=
    Cursor.pull_relabel f stream.tokens stream.ending
  rw [parseTokens, parseTokens, hstart]
  cases Cursor.ofStream stream with
  | error error => rfl
  | ok c =>
    dsimp only [relabelled]
    rw [Cursor.relabel_isAtEnd, (Parser.blind_expression f options options.maxDepth).1 c]
    split
    · rfl
    · cases Parser.expression options options.maxDepth c with
      | error error => rfl
      | ok result =>
        dsimp only [relabelled, Prod.map]
        rw [Cursor.relabel_isAtEnd]
        split <;> rfl

end ExprLang
