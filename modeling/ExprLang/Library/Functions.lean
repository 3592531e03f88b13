import ExprLang.Library.Texts
import ExprLang.Value.Text

/-!
# The functions of the library

Each takes the values of its arguments and fails if their number is not its own.  Text arguments
are taken by their text, so null counts as the empty text.
-/

namespace ExprLang.Library

/-- A function of one argument; failures show its name. -/
def ofOne (f : Value → Except Failure Value) (name : Text) : List Value → Except Failure Value
  | [v] => f v
  | arguments => .error (.wrongArgumentCount name arguments.length)

/-- A function of two arguments. -/
def ofTwo (f : Value → Value → Except Failure Value) (name : Text) :
    List Value → Except Failure Value
  | [v, w] => f v w
  | arguments => .error (.wrongArgumentCount name arguments.length)

/-- A function of three arguments. -/
def ofThree (f : Value → Value → Value → Except Failure Value) (name : Text) :
    List Value → Except Failure Value
  | [u, v, w] => f u v w
  | arguments => .error (.wrongArgumentCount name arguments.length)

/-- A function of two texts, the first argument being read first. -/
def ofTexts (f : Text → Text → Value) (v w : Value) : Except Failure Value := do
  let s ← v.toText
  let t ← w.toText
  return f s t

/-- A function of two texts, the second argument being read first. -/
def ofTextsReversed (f : Text → Text → Value) (v w : Value) : Except Failure Value := do
  let t ← w.toText
  let s ← v.toText
  return f s t

/-- A function of one text. -/
def ofText (f : Text → Text) (v : Value) : Except Failure Value := do
  return .string (f (← v.toText))

/-! ## Texts -/

def contains : Value → Value → Except Failure Value :=
  ofTextsReversed fun text needle => .boolean (Text.occurs needle text)

def containsIgnoreCase : Value → Value → Except Failure Value :=
  ofTextsReversed fun text needle =>
    .boolean (Text.occurs (Unicode.upper needle) (Unicode.upper text))

def endsWith : Value → Value → Except Failure Value :=
  ofTexts fun text ending => .boolean (ending.isSuffixOf text)

def startsWith : Value → Value → Except Failure Value :=
  ofTexts fun text beginning => .boolean (beginning.isPrefixOf text)

/-- The offset of the first occurrence, or minus one. -/
def indexOf : Value → Value → Except Failure Value :=
  ofTexts fun text needle =>
    match Text.indexOf? needle text with
    | some i => .long i
    | none => .long (-1)

/-- The replacement is not looked at if there is nothing to replace. -/
def replace (value old new : Value) : Except Failure Value := do
  let text ← value.toText
  let old ← old.toText
  if old = [] then
    return .string text
  else
    return .string (Text.replaceAll old (← new.toText) text)

def substring (value first last : Value) : Except Failure Value := do
  let text ← value.toText
  let first ← Failure.ofCoercion first.toLong
  let last ← Failure.ofCoercion last.toLong
  return .string (Text.substring text first last)

def substringAfter : Value → Value → Except Failure Value :=
  ofTexts fun text separator => .string (Text.substringAfter text separator)

def substringBefore : Value → Value → Except Failure Value :=
  ofTexts fun text separator => .string (Text.substringBefore text separator)

def toLowerCase : Value → Except Failure Value :=
  ofText Unicode.lower

def toUpperCase : Value → Except Failure Value :=
  ofText Unicode.upper

def trim : Value → Except Failure Value :=
  ofText Text.trim

/-! ## Collections -/

/-- The texts of all items. -/
def itemTexts : List Value → Except Failure (List Text)
  | [] => .ok []
  | item :: items => do
    let text ← item.toText
    let texts ← itemTexts items
    return text :: texts

/-- The texts of the items with a separator between them; a text is itself. -/
def join (items separator : Value) : Except Failure Value :=
  match items with
  | .null => .ok (.string [])
  | .string text => .ok (.string text)
  | _ => do
    let separator ← separator.toText
    match items.items? with
    | none => throw (.noItems items.typeName)
    | some items => return .string (Text.joinWith separator (← itemTexts items))

/-- The size of a text or a collection; zero for everything else. -/
def length (value : Value) : Except Failure Value :=
  .ok (.long (value.size?.getD 0))

/-- The runs of characters between delimiters. -/
def split (value delimiters : Value) : Except Failure Value := do
  let text ← value.toText
  if text = [] then
    return .list [.string []]
  else
    let delimiters ← delimiters.toText
    if delimiters = [] then
      return .list [.string text]
    else
      return .list ((Text.fields (fun c => decide (c ∈ delimiters)) text).map .string)

/-! ## Markup -/

def escapeXml : Value → Except Failure Value :=
  ofText Text.escapeMarkup

end ExprLang.Library
