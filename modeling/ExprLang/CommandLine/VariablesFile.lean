import ExprLang.Host.Variables
import ExprLang.Value.Equality

/-!
# Variables files

A loader for variables files that hold one value in flow notation: mappings in braces with quoted
keys, lists in brackets, texts in double quotes, and plain words.  A plain word is null, a boolean or
a number if it is spelled like one, and a text otherwise; a number with an exponent needs a point and
a sign of the exponent.  An empty file holds null.  Files in any other notation need another loader.

* `Flow.plainValue` — the value of a plain word.
* `Flow.read` — the value of a file.
-/

namespace ExprLang

inductive FlowError where
  | malformed
  /-- An integer that has too many digits. -/
  | oversized
  deriving DecidableEq, Repr

namespace Flow

/-! ## Plain words -/

/-- Decimal digits without a leading zero. -/
def isPlainDigits (digits : Text) : Bool :=
  match digits with
  | [] => false
  | ['0'] => true
  | c :: _ => c != '0' && digits.all Char.isDigit

/-- A point with digits, and an exponent with a sign, behind the digits before the point. -/
def isFractionAndExponent : Text → Bool
  | '.' :: rest =>
    match rest.dropWhile Char.isDigit with
    | [] => true
    | mark :: sign :: digits =>
      (mark = 'e' || mark = 'E') && (sign = '+' || sign = '-') && !digits.isEmpty
        && digits.all Char.isDigit
    | _ => false
  | _ => false

/-- Whether a word is spelled like a double. -/
def isPlainDouble (word : Text) : Bool :=
  let body := (takeSign word).2
  !(body.takeWhile Char.isDigit).isEmpty && isFractionAndExponent (body.dropWhile Char.isDigit)

def plainValue (word : Text) : Except FlowError Value :=
  if word = [] ∨ word = "null".toList then .ok .null
  else if word = "true".toList then .ok (.boolean true)
  else if word = "false".toList then .ok (.boolean false)
  else if isPlainDigits (takeSign word).2 then
    match (IntegerNumeral.ofText? word).bind IntegerNumeral.toInt? with
    | some i => .ok (.long i)
    | none => .error .oversized
  else if isPlainDouble word then
    .ok (.double (((Numeral.ofText? word).map Numeral.toDouble).getD .zero))
  else
    .ok (.string word)

/-! ## Texts -/

def hexDigit? (c : Char) : Option Nat :=
  if c.isDigit then some (c.toNat - '0'.toNat)
  else if 'a' ≤ c ∧ c ≤ 'f' then some (c.toNat - 'a'.toNat + 10)
  else if 'A' ≤ c ∧ c ≤ 'F' then some (c.toNat - 'A'.toNat + 10)
  else none

/-- The character of four hexadecimal digits; half a character is shown as a replacement. -/
def hexChar? (a b c d : Char) : Option Char := do
  let code := ((← hexDigit? a) * 16 + (← hexDigit? b)) * 256 + (← hexDigit? c) * 16 + (← hexDigit? d)
  return if 0xD800 ≤ code ∧ code < 0xE000 then '\uFFFD' else Char.ofNat code

def unescape? : Char → Option Char
  | '"' => some '"'
  | '\\' => some '\\'
  | '/' => some '/'
  | 'b' => some '\x08'
  | 'f' => some '\x0c'
  | 'n' => some '\n'
  | 'r' => some '\r'
  | 't' => some '\t'
  | _ => none

/-- The content of a quoted text up to its closing quote, and what follows. -/
def quotedText? : Text → Option (Text × Text)
  | [] => none
  | '"' :: rest => some ([], rest)
  | '\\' :: 'u' :: a :: b :: c :: d :: rest => do
    let char ← hexChar? a b c d
    let (content, rest) ← quotedText? rest
    return (char :: content, rest)
  | '\\' :: escaped :: rest => do
    let char ← unescape? escaped
    let (content, rest) ← quotedText? rest
    return (char :: content, rest)
  | c :: rest => do
    let (content, rest) ← quotedText? rest
    return (c :: content, rest)

/-! ## Values -/

def isSpace (c : Char) : Bool :=
  c = ' ' || c = '\t' || c = '\n' || c = '\r'

def skipSpaces (text : Text) : Text :=
  text.dropWhile isSpace

/-- The characters that end a plain word. -/
def endsWord (c : Char) : Bool :=
  isSpace c || c = ',' || c = ']' || c = '}' || c = ':' || c = '"'

mutual

/-- A value in front of a text, and what follows; `fuel` bounds the nesting and the length of
mappings and lists. -/
def readValue : (fuel : Nat) → Text → Except FlowError (Value × Text)
  | 0, _ => .error .malformed
  | fuel + 1, text =>
    match skipSpaces text with
    | '{' :: rest => do
      let (entries, rest) ← readEntries fuel rest
      return (Value.ofEntries entries, rest)
    | '[' :: rest => do
      let (items, rest) ← readItems fuel rest
      return (.list items, rest)
    | '"' :: rest =>
      match quotedText? rest with
      | some (content, rest) => .ok (.string content, rest)
      | none => .error .malformed
    | word => do
      let value ← plainValue (word.takeWhile (!endsWord ·))
      return (value, word.dropWhile (!endsWord ·))

/-- The entries of a mapping behind its opening brace, and what follows the closing one. -/
def readEntries : (fuel : Nat) → Text → Except FlowError (List (Value × Value) × Text)
  | 0, _ => .error .malformed
  | fuel + 1, text =>
    match skipSpaces text with
    | '}' :: rest => .ok ([], rest)
    | '"' :: rest =>
      match quotedText? rest with
      | none => .error .malformed
      | some (key, rest) =>
        match skipSpaces rest with
        | ':' :: rest => do
          let (value, rest) ← readValue fuel rest
          match skipSpaces rest with
          | ',' :: rest => do
            let (entries, rest) ← readEntries fuel rest
            return ((.string key, value) :: entries, rest)
          | '}' :: rest => return ([(.string key, value)], rest)
          | _ => throw .malformed
        | _ => .error .malformed
    | _ => .error .malformed

/-- The items of a list behind its opening bracket, and what follows the closing one. -/
def readItems : (fuel : Nat) → Text → Except FlowError (List Value × Text)
  | 0, _ => .error .malformed
  | fuel + 1, text =>
    match skipSpaces text with
    | ']' :: rest => .ok ([], rest)
    | text => do
      let (value, rest) ← readValue fuel text
      match skipSpaces rest with
      | ',' :: rest => do
        let (items, rest) ← readItems fuel rest
        return (value :: items, rest)
      | ']' :: rest => return ([value], rest)
      | _ => throw .malformed

end

/-- The value of a whole text. -/
def read (text : Text) : Except FlowError Value :=
  match readValue (text.length + 1) text with
  | .error error => .error error
  | .ok (value, rest) => if skipSpaces rest = [] then .ok value else .error .malformed

end Flow

end ExprLang
