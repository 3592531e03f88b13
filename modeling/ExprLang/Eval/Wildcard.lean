import ExprLang.Text.Basic

/-!
# Wildcard patterns

In a pattern, `*` stands for any run of characters, `?` for a single one, a backslash for the
character behind it and every other character for itself.  A pattern that ends in a backslash with
nothing behind it matches nothing.

* `matchesText` — whether a pattern matches the whole of a text.
-/

namespace ExprLang

inductive Wildcard where
  | run
  | single
  | char (c : Char)
  deriving DecidableEq, Repr

namespace Wildcard

/-- The items of a pattern. -/
def ofText? : Text → Option (List Wildcard)
  | [] => some []
  | ['\\'] => none
  | '\\' :: c :: rest => (ofText? rest).map (.char c :: ·)
  | '*' :: rest => (ofText? rest).map (.run :: ·)
  | '?' :: rest => (ofText? rest).map (.single :: ·)
  | c :: rest => (ofText? rest).map (.char c :: ·)

/-- Whether some end of the text has the property. -/
def anySuffix (p : Text → Bool) : Text → Bool
  | [] => p []
  | c :: rest => p (c :: rest) || anySuffix p rest

def matchesItems : List Wildcard → Text → Bool
  | [], text => text.isEmpty
  | .run :: items, text => anySuffix (matchesItems items) text
  | .single :: items, text =>
    match text with
    | [] => false
    | _ :: rest => matchesItems items rest
  | .char c :: items, text =>
    match text with
    | [] => false
    | d :: rest => decide (c = d) && matchesItems items rest

def matchesText (pattern text : Text) : Bool :=
  match ofText? pattern with
  | none => false
  | some items => matchesItems items text

end Wildcard

end ExprLang
