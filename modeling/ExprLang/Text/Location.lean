import ExprLang.Text.Search

/-!
# Places in a text

A place is an offset from the start of a text with its line and column, which both count from one.
Only a line feed ends a line.

* `Location.after` — the place behind a text, character by character.
* `Location.atOffset` — the place of an offset, from the line feeds in front of it.
* `after_append` — places add up along a text.
* `offset_after` — the offset grows by one per character.
-/

namespace ExprLang

structure Location where
  offset : Nat
  line : Nat
  column : Nat
  deriving DecidableEq, Repr

namespace Location

def origin : Location := ⟨0, 1, 1⟩

/-- The place behind the character `c` that stands here. -/
def next (loc : Location) (c : Char) : Location :=
  if c = '\n' then ⟨loc.offset + 1, loc.line + 1, 1⟩
  else ⟨loc.offset + 1, loc.line, loc.column + 1⟩

/-- The place behind the text that starts here. -/
def after (loc : Location) (text : Text) : Location :=
  text.foldl next loc

/-- The place of an offset in a whole text: its line by the number of line feeds in front of it, its
column by the distance from the last one. -/
def atOffset (source : Text) (offset : Nat) : Location where
  offset := offset
  line := (source.take offset).count '\n' + 1
  column :=
    match Text.lastIndexOf? '\n' (source.take offset) with
    | some i => offset - i
    | none => offset + 1

@[simp] theorem after_nil (loc : Location) : loc.after [] = loc := rfl

@[simp] theorem after_cons (loc : Location) (c : Char) (t : Text) :
    loc.after (c :: t) = (loc.next c).after t := rfl

theorem after_append (loc : Location) (s t : Text) :
    loc.after (s ++ t) = (loc.after s).after t := by
  simp [after]

theorem offset_next (loc : Location) (c : Char) : (loc.next c).offset = loc.offset + 1 := by
  unfold next; split <;> rfl

theorem offset_after (loc : Location) (t : Text) :
    (loc.after t).offset = loc.offset + t.length := by
  induction t generalizing loc with
  | nil => rfl
  | cons c t ih => simp [ih, offset_next]; omega

end Location

end ExprLang
