import ExprLang.Value.Equality
import ExprLang.Value.Text

/-!
# Looking up members and indices

A dictionary is looked up by key, a sequence by an integer index, and a host object by the name of
an attribute.  What is missing in a dictionary or beyond the end of a sequence is null.  Attributes
without a name or with a leading underscore are hidden.

* `access` — what an object, which is not null, holds under a key.
-/

namespace ExprLang.Value

/-- The entry of a dictionary under a key. -/
def accessEntry (entries : List (Value × Value)) (key : Value) : Except Failure Value :=
  if key.isHashable then
    .ok ((lookup? key entries).getD .null)
  else
    match key.quoted? with
    | some text => .error (.access (.invalidKey text "dict".toList))
    | none => .error .unquotable

/-- The item of a sequence at an index. -/
def accessItem (typeName : Text) (items : List Value) (key : Value) : Except Failure Value :=
  match key.toLong with
  | .ok index =>
    .ok (if 0 ≤ index then items[index.toNat]?.getD .null else .null)
  | .error _ =>
    match key.toText with
    | .ok text => .error (.access (.notAnIndex text typeName))
    | .error failure => .error failure

/-- The attribute of an object under the text of a key. -/
def accessAttribute (typeName : Text) (failing : List (Text × Failure))
    (attributes : List (Text × Value)) (key : Value) : Except Failure Value :=
  match key.toText with
  | .error failure => .error failure
  | .ok name =>
    if name = [] ∨ name.head? = some '_' then
      .error (.access (.hiddenMember name typeName))
    else
      match failing.lookup name with
      | some cause => .error (.wrap (.unreadableMember name typeName) cause)
      | none =>
        match attributes.lookup name with
        | some value => .ok value
        | none => .error (.access (.missingMember name typeName))

/-- The scalars have no members. -/
def accessScalar (typeName : Text) (key : Value) : Except Failure Value :=
  match key.toText with
  | .ok text => .error (.access (.scalarBase text typeName))
  | .error failure => .error failure

def access (object key : Value) : Except Failure Value :=
  match object with
  | .null => .ok .null
  | .boolean _ | .long _ | .double _ => accessScalar object.typeName key
  | .dict entries => accessEntry entries key
  | .string text => accessItem object.typeName (text.map fun c => .string [c]) key
  | .list items | .tuple items => accessItem object.typeName items key
  | .bytes content => accessItem object.typeName (content.map ofByte) key
  | .host head attributes => accessAttribute head.typeName head.failing attributes key
  | .undefined => accessAttribute object.typeName [] [] key

end ExprLang.Value
