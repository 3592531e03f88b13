import ExprLang.Token.Basic
import ExprLang.Unicode.Alphanumeric

/-!
# Lexemes

The reading of one lexeme at the start of a text that is neither empty nor blank.

* Numbers are digits with an optional fraction and an optional exponent.  They may not touch a
  name, a dot or another alphanumeric character.
* Strings stand between two equal quotes; a backslash starts one of six escapes.
* Names are ASCII letters, digits and underscores.  `qualifier:name` is one lexeme if it is called,
  that is, if an opening parenthesis follows.
* Of two operators that fit, the longer one is read.

* `text_ne_nil_of_read` — a lexeme is never empty.
-/

namespace ExprLang

inductive LexicalReason where
  | unexpectedCharacter (c : Char)
  | malformedNumber (text : Text)
  | tooManyDigits (digits : Text)
  | invalidEscape (c : Char)
  | unterminatedString
  deriving DecidableEq, Repr

def LexicalReason.message : LexicalReason → Text
  | .unexpectedCharacter c => "Unexpected character '".toList ++ c :: "'".toList
  | .malformedNumber text => "Invalid numeric literal '".toList ++ text ++ "'".toList
  | .tooManyDigits digits =>
    "Invalid numeric literal '".toList ++ digits.take 20 ++ "...' (".toList
      ++ Text.ofNat digits.length ++ " digits)".toList
  | .invalidEscape c => "Invalid escape sequence '\\".toList ++ c :: "'".toList
  | .unterminatedString => "Unterminated string literal".toList

/-- Why no lexeme can be read, and how far behind its start. -/
structure LexicalFault where
  offset : Nat
  reason : LexicalReason
  deriving DecidableEq, Repr

/-- A token without its place. -/
structure Lexeme where
  content : TokenContent
  text : Text
  deriving Repr

namespace Lexeme

def type (lexeme : Lexeme) : TokenType :=
  lexeme.content.type

/-! ## Numbers -/

/-- A fraction in front of `input`: a point and at least one digit. -/
def takeFraction : Text → Text × Text
  | '.' :: rest =>
    match spanDigits rest with
    | ([], _) => ([], '.' :: rest)
    | (digits, rest) => ('.' :: digits, rest)
  | input => ([], input)

/-- The sign of an exponent as it is written. -/
def takeExponentSign : Text → Text × Text
  | '+' :: rest => (['+'], rest)
  | '-' :: rest => (['-'], rest)
  | input => ([], input)

/-- An exponent in front of `input`: the letter, an optional sign and at least one digit. -/
def takeExponent : Text → Text × Text
  | [] => ([], [])
  | mark :: rest =>
    if mark = 'e' ∨ mark = 'E' then
      let (sign, unsigned) := takeExponentSign rest
      match spanDigits unsigned with
      | ([], _) => ([], mark :: rest)
      | (digits, rest) => (mark :: sign ++ digits, rest)
    else
      ([], mark :: rest)

/-- The longest number in front of `input`, and the rest. -/
def takeNumber (input : Text) : Text × Text :=
  let (whole, rest) := spanDigits input
  let (fraction, rest) := takeFraction rest
  let (exponent, rest) := takeExponent rest
  (whole ++ fraction ++ exponent, rest)

/-- The characters that may not follow a number. -/
def continuesNumber (c : Char) : Bool :=
  Unicode.isAlphanumeric c || c = '_' || c = '.'

/-- The value of a number: an integer unless it has a fraction or an exponent. -/
def numberValue (text : Text) : Except LexicalReason Value :=
  if hasFloatingMark text then
    .ok (.double (((Numeral.ofText? text).map Numeral.toDouble).getD .zero))
  else
    match (IntegerNumeral.ofText? text).bind IntegerNumeral.toInt? with
    | some i => .ok (.long i)
    | none => .error (.tooManyDigits text)

def readNumber (input : Text) : Except LexicalFault Lexeme :=
  let (text, rest) := takeNumber input
  match rest.head?.filter continuesNumber with
  | some c => .error ⟨0, .malformedNumber (text ++ [c])⟩
  | none =>
    match numberValue text with
    | .ok value => .ok ⟨.literal .number value, text⟩
    | .error reason => .error ⟨0, reason⟩

/-! ## Strings -/

/-- What the letter behind a backslash stands for. -/
def unescape? : Char → Option Char
  | '\\' => some '\\'
  | '"' => some '"'
  | '\'' => some '\''
  | 'n' => some '\n'
  | 't' => some '\t'
  | 'r' => some '\r'
  | _ => none

/-- The decoded content of a string up to its closing quote, and its text including that quote.
`offset` is the distance from the opening quote. -/
def readContent (quote : Char) (offset : Nat) : Text → Except LexicalFault (Text × Text)
  | [] => .error ⟨0, .unterminatedString⟩
  | c :: rest =>
    if c = quote then .ok ([], [c])
    else if c = '\\' then
      match rest with
      | [] => .error ⟨0, .unterminatedString⟩
      | escaped :: rest =>
        match unescape? escaped with
        | none => .error ⟨offset, .invalidEscape escaped⟩
        | some decoded =>
          match readContent quote (offset + 2) rest with
          | .ok (content, text) => .ok (decoded :: content, c :: escaped :: text)
          | .error fault => .error fault
    else
      match readContent quote (offset + 1) rest with
      | .ok (content, text) => .ok (c :: content, c :: text)
      | .error fault => .error fault

def readString (quote : Char) (rest : Text) : Except LexicalFault Lexeme :=
  match readContent quote 1 rest with
  | .ok (content, text) => .ok ⟨.literal .string (.string content), quote :: text⟩
  | .error fault => .error fault

/-! ## Names -/

def isNameStart (c : Char) : Bool :=
  c.isAlpha || c = '_'

def isNameChar (c : Char) : Bool :=
  c.isAlphanum || c = '_'

/-- The name in front of `input`, which is empty if there is none. -/
def takeName : Text → Text
  | [] => []
  | c :: rest => if isNameStart c then c :: rest.takeWhile isNameChar else []

/-- Operators that are spelled as a word stand for that word. -/
def keywords : List (Text × TokenContent) := [
  ("true".toList, .literal .boolean (.boolean true)),
  ("false".toList, .literal .boolean (.boolean false)),
  ("null".toList, .literal .null .null),
  ("and".toList, .sign .and "and".toList),
  ("or".toList, .sign .or "or".toList),
  ("not".toList, .sign .not "not".toList),
  ("empty".toList, .sign .empty "empty".toList),
  ("div".toList, .sign .divide "div".toList),
  ("mod".toList, .sign .modulo "mod".toList),
  ("eq".toList, .sign .eq "eq".toList),
  ("ne".toList, .sign .neq "ne".toList),
  ("lt".toList, .sign .lt "lt".toList),
  ("gt".toList, .sign .gt "gt".toList),
  ("le".toList, .sign .lte "le".toList),
  ("ge".toList, .sign .gte "ge".toList),
  ("instanceof".toList, .sign .reserved "instanceof".toList)]

def keyword? (name : Text) : Option TokenContent :=
  keywords.lookup name

/-- Whether an opening parenthesis follows, blanks aside. -/
def isCalled (rest : Text) : Bool :=
  (rest.dropWhile Unicode.isBlank).head? = some '('

/-- The local name of a qualified name whose qualifier `rest` follows. -/
def localName? : Text → Option Text
  | ':' :: rest =>
    let name := takeName rest
    if name ≠ [] ∧ (keyword? name).isNone ∧ isCalled (rest.drop name.length) then some name
    else none
  | _ => none

def readName (input : Text) : Lexeme :=
  let name := takeName input
  match keyword? name with
  | some content => ⟨content, name⟩
  | none =>
    match localName? (input.drop name.length) with
    | some localName => ⟨.qualifiedName name localName, name ++ ':' :: localName⟩
    | none => ⟨.identifier name, name⟩

/-! ## Operators -/

/-- A sign and the type of its tokens. -/
structure Operator where
  text : Text
  type : TokenType
  isSign : type.isSign = true
  deriving DecidableEq, Repr

def Operator.lexeme (operator : Operator) : Lexeme :=
  ⟨.sign operator.type operator.text operator.isSign, operator.text⟩

@[simp] theorem Operator.lexeme_text (operator : Operator) :
    operator.lexeme.text = operator.text := rfl

/-- The operators in the order in which they are tried. -/
def operators : List Operator := [
  ⟨"==".toList, .eq, rfl⟩, ⟨"!=".toList, .neq, rfl⟩, ⟨"<=".toList, .lte, rfl⟩,
  ⟨">=".toList, .gte, rfl⟩, ⟨"&&".toList, .and, rfl⟩, ⟨"||".toList, .or, rfl⟩,
  ⟨"~=".toList, .wildcard, rfl⟩, ⟨"<".toList, .lt, rfl⟩, ⟨">".toList, .gt, rfl⟩,
  ⟨"!".toList, .not, rfl⟩, ⟨"+".toList, .plus, rfl⟩, ⟨"-".toList, .minus, rfl⟩,
  ⟨"*".toList, .multiply, rfl⟩, ⟨"/".toList, .divide, rfl⟩, ⟨"%".toList, .modulo, rfl⟩,
  ⟨"#".toList, .join, rfl⟩, ⟨"?".toList, .question, rfl⟩, ⟨":".toList, .colon, rfl⟩,
  ⟨"(".toList, .leftParen, rfl⟩, ⟨")".toList, .rightParen, rfl⟩,
  ⟨"[".toList, .leftBracket, rfl⟩, ⟨"]".toList, .rightBracket, rfl⟩, ⟨",".toList, .comma, rfl⟩,
  ⟨".".toList, .dot, rfl⟩]

def readOperator? (input : Text) : Option Lexeme :=
  (operators.find? fun operator => operator.text.isPrefixOf input).map Operator.lexeme

/-! ## Reading a lexeme -/

/-- The lexeme in front of `c :: rest`. -/
def read (c : Char) (rest : Text) : Except LexicalFault Lexeme :=
  if c = '"' ∨ c = '\'' then readString c rest
  else if c.isDigit then readNumber (c :: rest)
  else if isNameStart c then .ok (readName (c :: rest))
  else
    match readOperator? (c :: rest) with
    | some lexeme => .ok lexeme
    | none => .error ⟨0, .unexpectedCharacter c⟩

theorem takeName_ne_nil {c : Char} (h : isNameStart c = true) (rest : Text) :
    takeName (c :: rest) ≠ [] := by
  simp [takeName, h]

theorem text_ne_nil_of_readName {c : Char} {rest : Text} (h : isNameStart c = true) :
    (readName (c :: rest)).text ≠ [] := by
  have hname := takeName_ne_nil h rest
  unfold readName
  dsimp only
  split
  · exact hname
  · split <;> simp [hname]

theorem text_ne_nil_of_readNumber {c : Char} {rest : Text} {lexeme : Lexeme}
    (hc : c.isDigit = true) (h : readNumber (c :: rest) = .ok lexeme) : lexeme.text ≠ [] := by
  have hne : (takeNumber (c :: rest)).1 ≠ [] := by
    simp [takeNumber, spanDigits, hc]
  unfold readNumber at h
  dsimp only at h
  split at h
  · exact absurd h (by simp)
  · split at h
    · cases h
      exact hne
    · exact absurd h (by simp)

theorem text_ne_nil_of_read {c : Char} {rest : Text} {lexeme : Lexeme}
    (h : read c rest = .ok lexeme) : lexeme.text ≠ [] := by
  unfold read at h
  split at h
  · unfold readString at h
    split at h
    · cases h; simp
    · exact absurd h (by simp)
  · split at h
    · exact text_ne_nil_of_readNumber (by assumption) h
    · split at h
      · cases h
        exact text_ne_nil_of_readName (by assumption)
      · split at h
        · cases h
          rename_i lexeme hop
          obtain ⟨op, hfind, rfl⟩ := Option.map_eq_some_iff.1 hop
          have hmem := List.mem_of_find?_eq_some hfind
          have : ∀ op ∈ operators, op.text ≠ [] := by decide
          exact this op hmem
        · exact absurd h (by simp)

end Lexeme

end ExprLang
