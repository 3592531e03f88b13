import ExprLang.Failure.Basic
import ExprLang.Number.Numeral

/-!
# Values

The values of the language are null, booleans, integers of any size, doubles and texts.  What a
host passes in beside these is carried along: lists, tuples, dictionaries, bytes and objects of the
host's own.  Dictionaries keep their entries in the order of insertion.
-/

namespace ExprLang

/-- What is known of a host object beside its attributes: which object it is, the name of its type,
its text and how it is quoted inside a container, its size if it has one, and the attributes that
cannot be read, with the failure that reading raises. -/
structure HostObject where
  identity : Nat
  typeName : Text
  text : Text
  quotation : Text
  size : Option Nat
  failing : List (Text × Failure)
  deriving DecidableEq, Repr

/-- The marker `undefined` is a resolver's answer for a name that it does not know. -/
inductive Value where
  | null
  | boolean (b : Bool)
  | long (i : Int)
  | double (x : Double)
  | string (text : Text)
  | list (items : List Value)
  | tuple (items : List Value)
  | dict (entries : List (Value × Value))
  | bytes (content : List UInt8)
  | host (object : HostObject) (attributes : List (Text × Value))
  | undefined
  deriving Inhabited, Repr

/-- The kinds that operators tell apart. -/
inductive ValueKind where
  | null
  | boolean
  | long
  | double
  | string
  | foreign
  deriving DecidableEq, Repr

namespace ValueKind

def name : ValueKind → Text
  | .null => "null".toList
  | .boolean => "boolean".toList
  | .long => "long".toList
  | .double => "double".toList
  | .string => "string".toList
  | .foreign => "opaque".toList

end ValueKind

namespace Value

def kind : Value → ValueKind
  | .null => .null
  | .boolean _ => .boolean
  | .long _ => .long
  | .double _ => .double
  | .string _ => .string
  | _ => .foreign

/-- The name of a value's type in messages. -/
def typeName : Value → Text
  | .list _ => "list".toList
  | .tuple _ => "tuple".toList
  | .dict _ => "dict".toList
  | .bytes _ => "bytes".toList
  | .host object _ => object.typeName
  | .undefined => "_Undefined".toList
  | v => v.kind.name

/-- Integers and doubles are numbers; booleans are not. -/
def isNumber (v : Value) : Bool :=
  v.kind = .long || v.kind = .double

def isNull : Value → Bool
  | .null => true
  | _ => false

/-- The number of characters, items, entries or bytes. -/
def size? : Value → Option Nat
  | .string text => some text.length
  | .list items => some items.length
  | .tuple items => some items.length
  | .dict entries => some entries.length
  | .bytes content => some content.length
  | .host object _ => object.size
  | _ => none

/-- The integer that a byte stands for. -/
def ofByte (byte : UInt8) : Value :=
  .long byte.toNat

/-- What the items of a value are, for those that have items. -/
def items? : Value → Option (List Value)
  | .list items => some items
  | .tuple items => some items
  | .dict entries => some (entries.map (·.1))
  | .bytes content => some (content.map ofByte)
  | _ => none

end Value

end ExprLang
