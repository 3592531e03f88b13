import ExprLang.Token.Lexer

/-!
# Syntax errors

A parse error has a reason and the token at which the text stops being an expression; its wording
shows the token's text where that helps.
-/

namespace ExprLang

inductive ParseReason where
  | emptyExpression
  | unexpectedToken
  | tooDeep
  | conditionalNotAllowed
  | operatorNotAllowed
  | chainedEquality
  | notCallable
  | reservedWord
  | unexpectedEnd
  | expectedExpression
  | expectedColon
  | expectedMember
  | expectedIndexEnd
  | expectedGroupEnd
  | expectedArguments
  | expectedArgumentsEnd
  | unterminatedSection
  | emptySection
  deriving DecidableEq, Repr

structure ParseError where
  reason : ParseReason
  token : Token
  deriving Repr

namespace ParseError

/-- The wording without the place. -/
def text (error : ParseError) : Text :=
  let lexeme := '\'' :: error.token.lexeme ++ ['\'']
  match error.reason with
  | .emptyExpression => "Empty expression".toList
  | .unexpectedToken => "Unexpected token ".toList ++ lexeme
  | .tooDeep => "Expression nested too deeply".toList
  | .conditionalNotAllowed => "Conditional expressions are not allowed".toList
  | .operatorNotAllowed => "Operator ".toList ++ lexeme ++ " is not allowed".toList
  | .chainedEquality => "Chained equality comparison requires parentheses".toList
  | .notCallable => "Function call requires a function name".toList
  | .reservedWord => "Reserved word ".toList ++ lexeme ++ " is not allowed".toList
  | .unexpectedEnd => "Unexpected end of expression".toList
  | .expectedExpression => "Expected expression but found ".toList ++ lexeme
  | .expectedColon => "Expected ':' in conditional expression".toList
  | .expectedMember => "Expected identifier after '.'".toList
  | .expectedIndexEnd => "Expected ']' after index".toList
  | .expectedGroupEnd => "Expected ')' after expression".toList
  | .expectedArguments => "Expected '(' after function name".toList
  | .expectedArgumentsEnd => "Expected ')' after arguments".toList
  | .unterminatedSection => "Unterminated '$\x7b' in template".toList
  | .emptySection => "Empty expression in template".toList

def message (error : ParseError) : Text :=
  error.text ++ " at position ".toList ++ Text.ofNat error.token.location.offset

end ParseError

inductive SyntaxError where
  | lexical (error : LexicalError)
  | parse (error : ParseError)
  deriving Repr

def SyntaxError.message : SyntaxError → Text
  | .lexical error => error.message
  | .parse error => error.message

/-- The place of the error; that of a parse error is the place of its token. -/
def SyntaxError.location : SyntaxError → Location
  | .lexical error => error.location
  | .parse error => error.token.location

end ExprLang
