import ExprLang.Unicode.CaseTable

/-!
# Upper and lower case of a text

Case mapping may change the length of a text: `ß` has the capital form `SS`.  Only the capital
sigma depends on its context: at the end of a word its small form is `ς`.

* `upper_append` — capital forms are found character by character.
-/

namespace ExprLang.Unicode

def mapByRuns (runs : List CaseRun) (c : Char) : Char :=
  match runs.findSome? (·.image? c.toNat) with
  | some code => Char.ofNat code
  | none => c

/-- The capital form of one character. -/
def upperChar (c : Char) : List Char :=
  match upperExpansions.lookup c.toNat with
  | some codes => codes.map Char.ofNat
  | none => [mapByRuns upperRuns c]

def upper (text : List Char) : List Char :=
  text.flatMap upperChar

theorem upper_append (s t : List Char) : upper (s ++ t) = upper s ++ upper t := by
  simp [upper]

/-- Whether the first character that is not ignorable is a letter with case. -/
def startsCased (text : List Char) : Bool :=
  match text.find? (!inRanges caseIgnorableRanges ·) with
  | some c => inRanges casedRanges c
  | none => false

/-- The small form of one character; `before` is the text before it, last character first. -/
def lowerChar (before : List Char) (c : Char) (after : List Char) : List Char :=
  if c = 'Σ' then
    [if startsCased before && !startsCased after then 'ς' else 'σ']
  else if c = 'İ' then
    ['i', '\u0307']
  else
    [mapByRuns lowerRuns c]

def lowerAfter (before : List Char) : List Char → List Char
  | [] => []
  | c :: after => lowerChar before c after ++ lowerAfter (c :: before) after

def lower (text : List Char) : List Char :=
  lowerAfter [] text

end ExprLang.Unicode
