import ExprLang.Text.Basic

/-!
# Searching in texts

First occurrences of a text in another one, what stands before and after them, last occurrences of a
character, replacement from left to right, and splitting at delimiters.

* `replaceAll_nil_left` — nothing is replaced for an empty text.
-/

namespace ExprLang.Text

/-- Whether `needle` stands somewhere in the text. -/
def occurs (needle : Text) : Text → Bool
  | [] => needle.isEmpty
  | c :: rest => needle.isPrefixOf (c :: rest) || occurs needle rest

/-- The offset of the first occurrence of `needle`. -/
def indexOf? (needle : Text) : Text → Option Nat
  | [] => if needle.isEmpty then some 0 else none
  | c :: rest =>
    if needle.isPrefixOf (c :: rest) then some 0
    else (indexOf? needle rest).map (· + 1)

/-- The offset of the last occurrence of a character. -/
def lastIndexOf? (c : Char) : Text → Option Nat
  | [] => none
  | first :: rest =>
    match lastIndexOf? c rest with
    | some i => some (i + 1)
    | none => if first = c then some 0 else none

/-- What stands before and after the first occurrence of `separator`. -/
def cut? (separator text : Text) : Option (Text × Text) :=
  (indexOf? separator text).map fun i => (text.take i, text.drop (i + separator.length))

/-- Every occurrence of `old`, from left to right and without overlap, replaced by `new`;
inserted text is not searched again. -/
def replaceAll (old new : Text) : Text → Text
  | [] => []
  | c :: rest =>
    if old ≠ [] ∧ old.isPrefixOf (c :: rest) then
      new ++ replaceAll old new ((c :: rest).drop old.length)
    else
      c :: replaceAll old new rest
termination_by text => text.length
decreasing_by
  · rename_i h
    have := List.length_pos_iff.2 h.1
    simp only [List.length_drop, List.length_cons]
    omega
  · simp

theorem replaceAll_nil_left (new text : Text) : replaceAll [] new text = text := by
  induction text with
  | nil => simp [replaceAll]
  | cons c rest ih => rw [replaceAll]; simp [ih]

/-- The maximal runs of characters that are not delimiters; `current` is the run read so far. -/
def fieldsFrom (isDelimiter : Char → Bool) (current : Text) : Text → List Text
  | [] => if current.isEmpty then [] else [current]
  | c :: rest =>
    if isDelimiter c then
      if current.isEmpty then fieldsFrom isDelimiter [] rest
      else current :: fieldsFrom isDelimiter [] rest
    else
      fieldsFrom isDelimiter (current ++ [c]) rest

/-- The maximal non-empty runs of characters that are not delimiters. -/
def fields (isDelimiter : Char → Bool) (text : Text) : List Text :=
  fieldsFrom isDelimiter [] text

end ExprLang.Text
