import ExprLang.Text.Search

/-!
# Text functions of the library

Substrings by index and by separator, and the escaping of markup.
-/

namespace ExprLang.Text

/-- The characters from `first` up to `last`, exclusive.  Indices are clamped to the text, and a
negative `last` means its end. -/
def substring (text : Text) (first last : Int) : Text :=
  let start := first.toNat
  let stop := if last < 0 ∨ text.length < last then text.length else last.toNat
  (text.take stop).drop start

/-- What stands after the first occurrence of `separator`; nothing if there is none. -/
def substringAfter (text separator : Text) : Text :=
  if separator = [] then text
  else
    match cut? separator text with
    | some (_, after) => after
    | none => []

/-- What stands before the first occurrence of `separator`; nothing if there is none. -/
def substringBefore (text separator : Text) : Text :=
  if separator = [] then []
  else
    match cut? separator text with
    | some (before, _) => before
    | none => []

/-- A character as it is written in markup. -/
def markupEscape (c : Char) : Text :=
  if c = '&' then "&amp;".toList
  else if c = '<' then "&lt;".toList
  else if c = '>' then "&gt;".toList
  else if c = '"' then "&#034;".toList
  else if c = '\'' then "&#039;".toList
  else [c]

/-- The text with the characters escaped that markup gives a meaning to. -/
def escapeMarkup (text : Text) : Text :=
  text.flatMap markupEscape

end ExprLang.Text
