import ExprLang.Value.Coercion
import ExprLang.Value.Quoted

/-!
# The text of a value

Null has the empty text, booleans are lower case words, a text is itself, a host object has a text of
its own, and everything else is written as it would be inside a container.

* `toText` — the text that operators and functions work with.
* `display` — the text for people, which shows null as a word.
-/

namespace ExprLang.Value

/-- The text of a value as it is written inside a container. -/
def quotedText (v : Value) : Except Failure Text :=
  match v.quoted? with
  | some text => .ok text
  | none => .error (.textlessContainer v.typeName)

def toText : Value → Except Failure Text
  | .null => .ok []
  | .boolean b => .ok (if b then "true".toList else "false".toList)
  | .string text => .ok text
  | .long i =>
    match integerText? i with
    | some text => .ok text
    | none => .error (.coercion (.longToString (bitLength i)))
  | .host object _ => .ok object.text
  | v => v.quotedText

@[simp]
theorem toText_string (text : Text) : (Value.string text).toText = .ok text :=
  rfl

def display : Value → Except Failure Text
  | .null => .ok "null".toList
  | v => v.toText

end ExprLang.Value
