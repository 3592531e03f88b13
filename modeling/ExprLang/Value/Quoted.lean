import ExprLang.Value.Basic

/-!
# Values as they are written inside containers

Texts are quoted, null and the booleans have capitalised names, a tuple of one item keeps its
comma.  There is no such text for a value that holds an integer of more than 4300 digits.
-/

namespace ExprLang.Value

/-- Items between brackets. -/
def bracketed (left right : Char) (items : List Text) : Text :=
  left :: Text.joinWith [',', ' '] items ++ [right]

mutual

def quoted? : Value → Option Text
  | .null => some "None".toList
  | .boolean true => some "True".toList
  | .boolean false => some "False".toList
  | .long i => integerText? i
  | .double x => some x.toText
  | .string text => some (Text.quoted text)
  | .list items => (quotedItems? items).map (bracketed '[' ']')
  | .tuple items => (quotedItems? items).map fun
    | [item] => '(' :: item ++ [',', ')']
    | texts => bracketed '(' ')' texts
  | .dict entries => (quotedEntries? entries).map (bracketed '{' '}')
  | .bytes content => some (Text.quotedBytes content)
  | .host object _ => some object.quotation
  | .undefined => some "UNDEFINED".toList

def quotedItems? : List Value → Option (List Text)
  | [] => some []
  | x :: xs => do
    let head ← quoted? x
    let tail ← quotedItems? xs
    return head :: tail

def quotedEntries? : List (Value × Value) → Option (List Text)
  | [] => some []
  | (key, value) :: entries => do
    let keyText ← quoted? key
    let valueText ← quoted? value
    let tail ← quotedEntries? entries
    return (keyText ++ ':' :: ' ' :: valueText) :: tail

end

end ExprLang.Value
