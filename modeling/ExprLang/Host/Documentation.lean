import ExprLang.Host.Registry
import ExprLang.Text.Quoted

/-!
# Documentation of a registry

A registry is documented by its qualified names and by category, as a document of texts, lists and
objects that is printed as indented JSON.

* `Registry.named` — the definitions by qualified name; of two with one name the later one counts.
* `Registry.byCategory` — the definitions of each category that has any, put together in one pass.
-/

namespace ExprLang

/-! ## Documents -/

inductive Document where
  | text (content : Text)
  | list (items : List Document)
  | object (fields : List (Text × Document))
  deriving Repr

namespace Document

/-- The two units that a character beyond the first plane is written with. -/
def surrogates (code : Nat) : Text :=
  let offset := code - 0x10000
  '\\' :: 'u' :: Text.hex 4 (0xD800 + offset / 0x400)
    ++ '\\' :: 'u' :: Text.hex 4 (0xDC00 + offset % 0x400)

def escapeChar (c : Char) : Text :=
  if c = '"' then ['\\', '"']
  else if c = '\\' then ['\\', '\\']
  else if c = '\n' then ['\\', 'n']
  else if c = '\r' then ['\\', 'r']
  else if c = '\t' then ['\\', 't']
  else if c.toNat = 8 then ['\\', 'b']
  else if c.toNat = 12 then ['\\', 'f']
  else if 32 ≤ c.toNat ∧ c.toNat < 127 then [c]
  else if c.toNat < 0x10000 then '\\' :: 'u' :: Text.hex 4 c.toNat
  else surrogates c.toNat

def quote (text : Text) : Text :=
  '"' :: text.flatMap escapeChar ++ ['"']

/-- Items on lines of their own between two brackets. -/
def block (left right : Char) (indent : Nat) : List Text → Text
  | [] => [left, right]
  | items =>
    let newline := '\n' :: List.replicate (indent + 2) ' '
    left :: newline ++ Text.joinWith (',' :: newline) items
      ++ '\n' :: List.replicate indent ' ' ++ [right]

mutual

/-- The document as JSON, two more spaces for each level. -/
def render (indent : Nat) : Document → Text
  | .text content => quote content
  | .list items => block '[' ']' indent (renderItems (indent + 2) items)
  | .object fields => block '{' '}' indent (renderFields (indent + 2) fields)

def renderItems (indent : Nat) : List Document → List Text
  | [] => []
  | item :: items => render indent item :: renderItems indent items

def renderFields (indent : Nat) : List (Text × Document) → List Text
  | [] => []
  | (name, value) :: fields =>
    (quote name ++ ':' :: ' ' :: render indent value) :: renderFields indent fields

end

end Document

/-! ## Definitions -/

def FunctionParameter.document (parameter : FunctionParameter) : Document :=
  .object [
    ("name".toList, .text parameter.name),
    ("type".toList, .text parameter.type),
    ("description".toList, .text parameter.description)]

def FunctionDefinition.document (definition : FunctionDefinition) : Document :=
  .object [
    ("name".toList, .text definition.qualifiedName),
    ("description".toList, .text definition.description),
    ("category".toList, .text definition.category.name),
    ("parameters".toList, .list (definition.parameters.map (·.document))),
    ("returnType".toList, .text definition.returnType),
    ("examples".toList, .list (definition.examples.map .text))]

namespace Registry

/-- The entries with `definition` under its qualified name; a name keeps its place. -/
def name (definition : FunctionDefinition) :
    List (Text × FunctionDefinition) → List (Text × FunctionDefinition)
  | [] => [(definition.qualifiedName, definition)]
  | entry :: entries =>
    if entry.1 = definition.qualifiedName then (entry.1, definition) :: entries
    else entry :: name definition entries

def named (registry : Registry) : List (Text × FunctionDefinition) :=
  registry.definitions.foldl (fun entries definition => name definition entries) []

/-- The groups with `definition` at the end of the group of its category, which is a new one if
there has been none. -/
def group (definition : FunctionDefinition) :
    List (FunctionCategory × List FunctionDefinition) →
    List (FunctionCategory × List FunctionDefinition)
  | [] => [(definition.category, [definition])]
  | entry :: entries =>
    if entry.1 = definition.category then (entry.1, entry.2 ++ [definition]) :: entries
    else entry :: group definition entries

def byCategory (registry : Registry) : List (FunctionCategory × List FunctionDefinition) :=
  registry.definitions.foldl (fun groups definition => group definition groups) []

/-- The definitions of the groups as they are shown, each group under the name of its category. -/
def categoryDocuments (registry : Registry) : List (Text × Document) :=
  registry.byCategory.map fun entry => (entry.1.name, .list (entry.2.map (·.document)))

def document (registry : Registry) : Document :=
  .object [
    ("functions".toList,
      .object (registry.named.map fun entry => (entry.1, entry.2.document))),
    ("byCategory".toList, .object registry.categoryDocuments)]

end Registry

end ExprLang
