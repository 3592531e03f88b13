import ExprLang.Value.Basic

/-!
# Equality and order inside containers

Inside lists, tuples and dictionaries, booleans count as the numbers 0 and 1, and numbers are
compared by their exact values.  Lists equal lists only, tuples equal tuples only, dictionaries
ignore the order of their entries, and host objects are told apart by identity.  What is not a
number equals itself alone, when its mark tells that it is the same.

* `equal` — equality of items and of dictionary keys.
* `less?` — the order of items, where there is one.
* `lookup?`, `insert` — dictionaries up to this equality.
-/

namespace ExprLang.Value

/-- The exact value of what is a number, booleans included. -/
def numeric? : Value → Option Extended
  | .boolean b => some (.ofInt (if b then 1 else 0))
  | .long i => some (.ofInt i)
  | .double x => x.extended?
  | _ => none

mutual

def equal : Value → Value → Bool
  | .null, .null => true
  | .undefined, .undefined => true
  | .string s, .string t => decide (s = t)
  | .bytes a, .bytes b => decide (a = b)
  | .list xs, .list ys => equalItems xs ys
  | .tuple xs, .tuple ys => equalItems xs ys
  | .dict es, .dict fs => decide (es.length = fs.length) && entriesAmong es fs
  | .host a _, .host b _ => decide (a.identity = b.identity)
  | .double (.nan (some a)), .double (.nan (some b)) => decide (a = b)
  | v, w => match v.numeric?, w.numeric? with
    | some a, some b => decide (a = b)
    | _, _ => false

def equalItems : List Value → List Value → Bool
  | [], [] => true
  | x :: xs, y :: ys => equal x y && equalItems xs ys
  | _, _ => false

def entriesAmong : List (Value × Value) → List (Value × Value) → Bool
  | [], _ => true
  | (k, v) :: es, fs => fs.any (fun f => equal k f.1 && equal v f.2) && entriesAmong es fs

end

/-- Whether the value takes part in the order of numbers. -/
def isOrderedNumber : Value → Bool
  | .boolean _ => true
  | .long _ => true
  | .double _ => true
  | _ => false

mutual

/-- Whether the first value comes before the second one; values of different types have no order. -/
def less? : Value → Value → Option Bool
  | .string s, .string t => some (Text.less s t)
  | .bytes a, .bytes b => some (decide (a < b))
  | .list xs, .list ys => lessItems? xs ys
  | .tuple xs, .tuple ys => lessItems? xs ys
  | v, w =>
    if v.isOrderedNumber && w.isOrderedNumber then
      match v.numeric?, w.numeric? with
      | some a, some b => some (a.less b)
      | _, _ => some false
    else
      none

/-- The first pair of unequal items decides; the shorter of two lists comes first if there is
none. -/
def lessItems? : List Value → List Value → Option Bool
  | [], [] => some false
  | [], _ :: _ => some true
  | _ :: _, [] => some false
  | x :: xs, y :: ys => if equal x y then lessItems? xs ys else less? x y

end

mutual

/-- Whether the value can be a dictionary key. -/
def isHashable : Value → Bool
  | .list _ => false
  | .dict _ => false
  | .tuple items => allHashable items
  | _ => true

def allHashable : List Value → Bool
  | [] => true
  | x :: xs => isHashable x && allHashable xs

end

/-- The value of the entry with an equal key. -/
def lookup? (key : Value) (entries : List (Value × Value)) : Option Value :=
  (entries.find? fun entry => equal key entry.1).map (·.2)

/-- The entries with `value` under `key`; an equal key keeps its place and its spelling. -/
def insert (key value : Value) : List (Value × Value) → List (Value × Value)
  | [] => [(key, value)]
  | entry :: entries =>
    if equal key entry.1 then (entry.1, value) :: entries
    else entry :: insert key value entries

/-- The dictionary of entries inserted one after another. -/
def ofEntries (entries : List (Value × Value)) : Value :=
  .dict (entries.foldl (fun dict entry => insert entry.1 entry.2 dict) [])

end ExprLang.Value
