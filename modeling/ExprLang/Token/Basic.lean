import ExprLang.Text.Location
import ExprLang.Value.Basic

/-!
# Tokens

A token has a content of some type, its place in the source and the text that it was read from.
Keywords are reserved: they are never names.

* `TokenContent` — what tokens of each type hold; there is no token with a content of another type.
-/

namespace ExprLang

inductive TokenType where
  | number
  | string
  | boolean
  | null
  | identifier
  | qualifiedName
  | eq
  | neq
  | lt
  | lte
  | gt
  | gte
  | and
  | or
  | not
  | empty
  | plus
  | minus
  | multiply
  | divide
  | modulo
  | wildcard
  | join
  | question
  | colon
  | leftParen
  | rightParen
  | leftBracket
  | rightBracket
  | comma
  | dot
  | reserved
  | eof
  deriving DecidableEq, Repr

namespace TokenType

/-- The name of the type in listings. -/
def name : TokenType → String
  | .number => "NUMBER"
  | .string => "STRING"
  | .boolean => "BOOLEAN"
  | .null => "NULL"
  | .identifier => "IDENTIFIER"
  | .qualifiedName => "QUALIFIED_NAME"
  | .eq => "EQ"
  | .neq => "NEQ"
  | .lt => "LT"
  | .lte => "LTE"
  | .gt => "GT"
  | .gte => "GTE"
  | .and => "AND"
  | .or => "OR"
  | .not => "NOT"
  | .empty => "EMPTY"
  | .plus => "PLUS"
  | .minus => "MINUS"
  | .multiply => "MULTIPLY"
  | .divide => "DIVIDE"
  | .modulo => "MODULO"
  | .wildcard => "MATCH"
  | .join => "JOIN"
  | .question => "QUESTION"
  | .colon => "COLON"
  | .leftParen => "LPAREN"
  | .rightParen => "RPAREN"
  | .leftBracket => "LBRACKET"
  | .rightBracket => "RBRACKET"
  | .comma => "COMMA"
  | .dot => "DOT"
  | .reserved => "RESERVED"
  | .eof => "EOF"

/-- The types of tokens that stand for a value. -/
def isLiteral : TokenType → Bool
  | .number | .string | .boolean | .null => true
  | _ => false

/-- The types of signs, and of the words that are spelled in place of signs or are reserved. -/
def isSign : TokenType → Bool
  | .number | .string | .boolean | .null | .identifier | .qualifiedName | .eof => false
  | _ => true

theorem isSign_of_isLiteral {type : TokenType} (h : type.isLiteral = true) :
    type.isSign = false := by
  cases type <;> first | rfl | cases h

end TokenType

/-- What a token is, with all that its type has to tell: the value of a literal, a name, the two
parts of a qualified function name, or the text of a sign or a reserved word. -/
inductive TokenContent where
  | literal (type : TokenType) (value : Value) (isLiteral : type.isLiteral = true := by rfl)
  | identifier (name : Text)
  | qualifiedName (qualifier name : Text)
  | sign (type : TokenType) (text : Text) (isSign : type.isSign = true := by rfl)
  | eof
  deriving Repr

def TokenContent.type : TokenContent → TokenType
  | .literal type _ _ => type
  | .identifier _ => .identifier
  | .qualifiedName _ _ => .qualifiedName
  | .sign type _ _ => type
  | .eof => .eof

theorem TokenContent.eq_eof_of_type {content : TokenContent} (h : content.type = .eof) :
    content = .eof := by
  cases content with
  | literal type value isLiteral =>
    obtain rfl : type = .eof := h
    cases isLiteral
  | sign type text isSign =>
    obtain rfl : type = .eof := h
    cases isSign
  | identifier | qualifiedName => cases h
  | eof => rfl

theorem TokenContent.exists_sign {content : TokenContent} {type : TokenType}
    (h : content.type = type) (isSign : type.isSign = true) :
    ∃ text, content = .sign type text isSign := by
  subst h
  cases content with
  | sign type text => exact ⟨text, rfl⟩
  | literal type value isLiteral =>
    rw [TokenContent.type, TokenType.isSign_of_isLiteral isLiteral] at isSign
    cases isSign
  | _ => cases isSign

structure Token where
  content : TokenContent
  location : Location
  lexeme : Text
  deriving Repr

namespace Token

def type (token : Token) : TokenType :=
  token.content.type

section

variable {token : Token} {content : TokenContent}

theorem type_eq (h : token.content = content) : token.type = content.type :=
  congrArg TokenContent.type h

theorem type_ne_eof (h : token.content = content) (hne : content ≠ .eof) : token.type ≠ .eof :=
  fun htype => hne (h.symm.trans (TokenContent.eq_eof_of_type htype))

end

/-- The token that ends a source. -/
def eof (location : Location) : Token :=
  ⟨.eof, location, []⟩

end Token

end ExprLang
