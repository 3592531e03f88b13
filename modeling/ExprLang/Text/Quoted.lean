import ExprLang.Text.Basic
import ExprLang.Unicode.Printable

/-!
# Quoted texts and bytes

A text is quoted with single quotes, or with double quotes when it holds a single quote and no
double quote.  The quote in use and the backslash are escaped, line feed, carriage return and tab
have letters of their own, and any other character that is not printable is written in hexadecimal
with two, four or eight digits.  Bytes are quoted in the same way; those beyond ASCII are never
printable.
-/

namespace ExprLang.Text

/-- The lower case hexadecimal digits of `n`, at least `width` of them. -/
def hex (width n : Nat) : Text :=
  let digits := Nat.toDigits 16 n
  List.replicate (width - digits.length) '0' ++ digits

/-- The quote that a text is written with. -/
def quoteFor (text : Text) : Char :=
  if decide ('\'' ∈ text) && !decide ('"' ∈ text) then '"' else '\''

/-- The escapes shared by texts and bytes. -/
def shortEscape? (quote c : Char) : Option Text :=
  if c = quote ∨ c = '\\' then some ['\\', c]
  else if c = '\n' then some ['\\', 'n']
  else if c = '\r' then some ['\\', 'r']
  else if c = '\t' then some ['\\', 't']
  else none

/-- A character in hexadecimal. -/
def longEscape (code : Nat) : Text :=
  if code < 0x100 then '\\' :: 'x' :: hex 2 code
  else if code < 0x10000 then '\\' :: 'u' :: hex 4 code
  else '\\' :: 'U' :: hex 8 code

def quoteChar (quote c : Char) : Text :=
  match shortEscape? quote c with
  | some escape => escape
  | none => if Unicode.isPrintable c then [c] else longEscape c.toNat

/-- The text between quotes. -/
def quoted (text : Text) : Text :=
  let quote := quoteFor text
  quote :: text.flatMap (quoteChar quote) ++ [quote]

def quoteByte (quote : Char) (byte : UInt8) : Text :=
  let c := Char.ofNat byte.toNat
  match shortEscape? quote c with
  | some escape => escape
  | none => if 32 ≤ byte.toNat ∧ byte.toNat < 127 then [c] else longEscape byte.toNat

/-- Bytes between quotes, behind a `b`. -/
def quotedBytes (bytes : List UInt8) : Text :=
  let quote := quoteFor (bytes.map fun byte => Char.ofNat byte.toNat)
  'b' :: quote :: bytes.flatMap (quoteByte quote) ++ [quote]

end ExprLang.Text
