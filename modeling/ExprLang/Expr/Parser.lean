import ExprLang.Expr.Basic
import ExprLang.Expr.SyntaxError
import ExprLang.Options.Basic

/-!
# Parsing

Recursive descent over a stream of tokens, with one token of look-ahead.  From the loosest to the
tightest level:

1. `? :`
2. `||`
3. `&&`
4. `==`, `!=` and `~=`, which do not chain
5. `<`, `<=`, `>` and `>=`
6. `+`, `-` and `#`
7. `*`, `/` and `%`
8. `!`, `-` and `empty` in front of an operand
9. members, indices and calls

The recursion runs on the depth of nesting that is left.  It is used up by every expression inside
another one and by every operand of an operator in front; at none left, any token is too deep.

* `expression` — an expression at a depth.
* `parse` — a whole stream as one expression.
-/

namespace ExprLang

/-- A place in a stream: the token to look at and what follows it. -/
structure Cursor where
  current : Token
  rest : List Token
  ending : Except LexicalError Token

namespace Cursor

/-- The cursor in front of `tokens`; an error stands in the way only when no token is left. -/
def pull (tokens : List Token) (ending : Except LexicalError Token) : Except SyntaxError Cursor :=
  match tokens, ending with
  | token :: rest, ending => .ok ⟨token, rest, ending⟩
  | [], .ok token => .ok ⟨token, [], .ok token⟩
  | [], .error error => .error (.lexical error)

def ofStream (stream : TokenStream) : Except SyntaxError Cursor :=
  pull stream.tokens stream.ending

def isAtEnd (c : Cursor) : Bool :=
  c.current.type = .eof

/-- Behind the current token; the end of the stream is never left. -/
def advance (c : Cursor) : Except SyntaxError Cursor :=
  if c.isAtEnd then .ok c else pull c.rest c.ending

/-- The number of tokens up to the end, the current one included. -/
def remaining (c : Cursor) : Nat :=
  if c.isAtEnd then 0 else c.rest.length + 1

/-- An error at the current token. -/
def fail {α : Type} (c : Cursor) (reason : ParseReason) : Except SyntaxError α :=
  .error (.parse ⟨reason, c.current⟩)

/-- Behind a token of the given type. -/
def expect (c : Cursor) (type : TokenType) (reason : ParseReason) : Except SyntaxError Cursor :=
  if c.current.type = type then c.advance else c.fail reason

end Cursor

/-- A parser takes what it recognises from the front of a stream. -/
abbrev Parser (α : Type) := Cursor → Except SyntaxError (α × Cursor)

namespace Parser

/-! ## Operators by token type -/

def orOperator? : TokenType → Option BinaryOperator
  | .or => some .or
  | _ => none

def andOperator? : TokenType → Option BinaryOperator
  | .and => some .and
  | _ => none

def equalityOperator? : TokenType → Option BinaryOperator
  | .eq => some .eq
  | .neq => some .ne
  | .wildcard => some .wildcard
  | _ => none

def relationalOperator? : TokenType → Option BinaryOperator
  | .lt => some .lt
  | .lte => some .le
  | .gt => some .gt
  | .gte => some .ge
  | _ => none

def additiveOperator? : TokenType → Option BinaryOperator
  | .plus => some .add
  | .minus => some .subtract
  | .join => some .join
  | _ => none

def multiplicativeOperator? : TokenType → Option BinaryOperator
  | .multiply => some .multiply
  | .divide => some .divide
  | .modulo => some .modulo
  | _ => none

def unaryOperator? : TokenType → Option UnaryOperator
  | .not => some .not
  | .minus => some .negate
  | .empty => some .empty
  | _ => none

def allowsOperator (options : ParserOptions) : BinaryOperator → Bool
  | .wildcard => options.matchAllowed
  | .join => options.joinAllowed
  | _ => true

/-- Behind an operator.  Whether the operator belongs to the language is decided only when the next
token has been read. -/
def takeOperator (options : ParserOptions) (operator : BinaryOperator) (c : Cursor) :
    Except SyntaxError Cursor :=
  match c.advance with
  | .error error => .error error
  | .ok c' => if allowsOperator options operator then .ok c' else c.fail .operatorNotAllowed

/-! ## Chains of operators -/

/-- Operators of one level and their right operands, `left` being read; at most `steps` of them. -/
def chainTail (options : ParserOptions) (operator? : TokenType → Option BinaryOperator)
    (operand : Parser Expr) : Nat → Expr → Parser Expr
  | 0, left, c => .ok (left, c)
  | steps + 1, left, c =>
    match operator? c.current.type with
    | none => .ok (left, c)
    | some operator =>
      match takeOperator options operator c with
      | .error error => .error error
      | .ok c' =>
        match operand c' with
        | .error error => .error error
        | .ok (right, c'') =>
          chainTail options operator? operand steps (.binary operator left right) c''

/-- Operands of the next level with operators of one level between them, grouped to the left. -/
def chain (options : ParserOptions) (operator? : TokenType → Option BinaryOperator)
    (operand : Parser Expr) : Parser Expr := fun c =>
  match operand c with
  | .error error => .error error
  | .ok (left, c') =>
    if (operator? c'.current.type).isSome then
      chainTail options operator? operand c'.remaining left c'
    else
      .ok (left, c')

/-- One operand, or two with an equality operator between them. -/
def equality (options : ParserOptions) (operand : Parser Expr) : Parser Expr := fun c =>
  match operand c with
  | .error error => .error error
  | .ok (left, c') =>
    match equalityOperator? c'.current.type with
    | none => .ok (left, c')
    | some operator =>
      match takeOperator options operator c' with
      | .error error => .error error
      | .ok c'' =>
        match operand c'' with
        | .error error => .error error
        | .ok (right, c''') =>
          if (equalityOperator? c'''.current.type).isSome then c'''.fail .chainedEquality
          else .ok (.binary operator left right, c''')

/-! ## Primary expressions

`nested` reads an expression inside another one. -/

/-- The arguments behind a first one, each after a comma; at most `steps` of them. -/
def argumentsTail (nested : Parser Expr) : Nat → Parser (List Expr)
  | 0, c => .ok ([], c)
  | steps + 1, c =>
    if c.current.type = .comma then
      match c.advance with
      | .error error => .error error
      | .ok c' =>
        match nested c' with
        | .error error => .error error
        | .ok (argument, c'') =>
          match argumentsTail nested steps c'' with
          | .error error => .error error
          | .ok (arguments, c''') => .ok (argument :: arguments, c''')
    else
      .ok ([], c)

/-- The arguments of a call up to its closing parenthesis. -/
def arguments (nested : Parser Expr) : Parser (List Expr) := fun c =>
  if c.current.type = .rightParen then .ok ([], c)
  else
    match nested c with
    | .error error => .error error
    | .ok (first, c') =>
      match argumentsTail nested c'.remaining c' with
      | .error error => .error error
      | .ok (others, c'') => .ok (first :: others, c'')

/-- A call, behind the function's name. -/
def call (nested : Parser Expr) (qualifier : Option Text) (name : Text) : Parser Expr := fun c =>
  match c.expect .leftParen .expectedArguments with
  | .error error => .error error
  | .ok c' =>
    match arguments nested c' with
    | .error error => .error error
    | .ok (args, c'') =>
      match c''.expect .rightParen .expectedArgumentsEnd with
      | .error error => .error error
      | .ok c''' => .ok (.call qualifier name args, c''')

/-- A variable, or a call of a function without qualifier. -/
def named (nested : Parser Expr) (name : Text) : Parser Expr := fun c =>
  if c.current.type = .leftParen then call nested none name c
  else .ok (.identifier name, c)

/-- An expression in parentheses, behind the opening one. -/
def group (nested : Parser Expr) : Parser Expr := fun c =>
  match nested c with
  | .error error => .error error
  | .ok (inner, c') =>
    match c'.expect .rightParen .expectedGroupEnd with
    | .error error => .error error
    | .ok c'' => .ok (inner, c'')

def primary (nested : Parser Expr) : Parser Expr := fun c =>
  match c.current.content with
  | .literal _ value _ =>
    match c.advance with
    | .error error => .error error
    | .ok c' => .ok (.literal value, c')
  | .identifier name =>
    match c.advance with
    | .error error => .error error
    | .ok c' => named nested name c'
  | .qualifiedName qualifier name =>
    match c.advance with
    | .error error => .error error
    | .ok c' => call nested (some qualifier) name c'
  | .sign .leftParen _ _ =>
    match c.advance with
    | .error error => .error error
    | .ok c' => group nested c'
  | .sign .reserved _ _ => c.fail .reservedWord
  | .sign _ _ _ => c.fail .expectedExpression
  | .eof => c.fail .unexpectedEnd

/-! ## Members and indices -/

/-- The name behind a dot. -/
def memberName : Parser Text := fun c =>
  match c.current.content with
  | .identifier name =>
    match c.advance with
    | .error error => .error error
    | .ok c' => .ok (name, c')
  | _ => c.fail .expectedMember

/-- The expression behind an opening bracket, and the closing one. -/
def indexKey (nested : Parser Expr) : Parser Expr := fun c =>
  match nested c with
  | .error error => .error error
  | .ok (key, c') =>
    match c'.expect .rightBracket .expectedIndexEnd with
    | .error error => .error error
    | .ok c'' => .ok (key, c'')

/-- Members and indices behind `base`; at most `steps` of them. -/
def accessTail (nested : Parser Expr) : Nat → Expr → Parser Expr
  | 0, base, c => .ok (base, c)
  | steps + 1, base, c =>
    match c.current.type with
    | .dot =>
      match c.advance with
      | .error error => .error error
      | .ok c' =>
        match memberName c' with
        | .error error => .error error
        | .ok (name, c'') => accessTail nested steps (.member base name) c''
    | .leftBracket =>
      match c.advance with
      | .error error => .error error
      | .ok c' =>
        match indexKey nested c' with
        | .error error => .error error
        | .ok (key, c'') => accessTail nested steps (.index base key) c''
    | .leftParen => c.fail .notCallable
    | _ => .ok (base, c)

/-- Whether a token continues a primary expression, or would do so if it could be called. -/
def continuesAccess : TokenType → Bool
  | .dot | .leftBracket | .leftParen => true
  | _ => false

/-- A primary expression with its members and indices. -/
def access (nested : Parser Expr) : Parser Expr := fun c =>
  match primary nested c with
  | .error error => .error error
  | .ok (base, c') =>
    if continuesAccess c'.current.type then accessTail nested c'.remaining base c'
    else .ok (base, c')

/-! ## Expressions -/

/-- An operand with the operators in front of it; `inner` reads what stands behind one. -/
def unary (inner nested : Parser Expr) : Parser Expr := fun c =>
  match unaryOperator? c.current.type with
  | none => access nested c
  | some operator =>
    match c.advance with
    | .error error => .error error
    | .ok c' =>
      match inner c' with
      | .error error => .error error
      | .ok (operand, c'') => .ok (.unary operator operand, c'')

/-- The levels of binary operators above `operand`. -/
def disjunction (options : ParserOptions) (operand : Parser Expr) : Parser Expr :=
  chain options orOperator? <|
  chain options andOperator? <|
  equality options <|
  chain options relationalOperator? <|
  chain options additiveOperator? <|
  chain options multiplicativeOperator? operand

/-- Behind the question mark: the two branches of a conditional. -/
def branches (nested : Parser Expr) (condition : Expr) : Parser Expr := fun c =>
  match nested c with
  | .error error => .error error
  | .ok (thenBranch, c') =>
    match c'.expect .colon .expectedColon with
    | .error error => .error error
    | .ok c'' =>
      match nested c'' with
      | .error error => .error error
      | .ok (elseBranch, c''') => .ok (.conditional condition thenBranch elseBranch, c''')

/-- A conditional, or just what could be its condition.  Whether conditionals belong to the language
is decided only when the token behind the question mark has been read. -/
def conditional (options : ParserOptions) (nested operand : Parser Expr) : Parser Expr := fun c =>
  match disjunction options operand c with
  | .error error => .error error
  | .ok (condition, c') =>
    if c'.current.type = .question then
      match c'.advance with
      | .error error => .error error
      | .ok c'' =>
        if options.conditionalAllowed then branches nested condition c''
        else c'.fail .conditionalNotAllowed
    else
      .ok (condition, c')

mutual

/-- An expression with `depth` levels of nesting left, its own included. -/
def expression (options : ParserOptions) : (depth : Nat) → Parser Expr
  | 0, c => c.fail .tooDeep
  | depth + 1, c =>
    conditional options (expression options depth)
      (unary (innerOperand options depth) (expression options depth)) c

/-- What stands behind an operator in front, which nests it. -/
def innerOperand (options : ParserOptions) : (depth : Nat) → Parser Expr
  | 0, c => c.fail .tooDeep
  | depth + 1, c => unary (innerOperand options depth) (expression options depth) c

end

end Parser

/-- The stream as one expression. -/
def parseTokens (options : ParserOptions) (stream : TokenStream) : Except SyntaxError Expr :=
  match Cursor.ofStream stream with
  | .error error => .error error
  | .ok c =>
    if c.isAtEnd then c.fail .emptyExpression
    else
      match Parser.expression options options.maxDepth c with
      | .error error => .error error
      | .ok (expr, c') => if c'.isAtEnd then .ok expr else c'.fail .unexpectedToken

/-- The source of an expression as a tree. -/
def parse (options : ParserOptions) (source : Text) : Except SyntaxError Expr :=
  parseTokens options (.ofSource source)

end ExprLang
