import ExprLang.Number.Numeral
import ExprLang.Options.Basic
import ExprLang.Text.Quoted
import ExprLang.Unicode.Blank
import ExprLang.Unicode.Digit
import ExprLang.Unicode.LetterCase

/-!
# Parser options from the environment

Each option has a variable of its own.  A variable that is not set, or set to nothing, leaves the
default.  The depth is an integer of at least one; a flag is one of four words for yes or of four
words for no, in any case and with blanks around it.

* `readInteger?` — the integers that a variable may hold: digits of any script, single underscores
  between digits, a sign and spaces around.
* `ParserOptions.ofEnvironment` — the options, or the first variable that cannot be read.
-/

namespace ExprLang

/-- The variables of an environment. -/
abbrev Environment := Text → Option Text

inductive OptionsError where
  | notAnInteger (name raw : Text)
  | depthTooSmall (name : Text)
  | notABoolean (name raw : Text)
  deriving DecidableEq, Repr

def OptionsError.message : OptionsError → Text
  | .notAnInteger name raw => name ++ " must be an integer, got ".toList ++ Text.quoted raw
  | .depthTooSmall name => name ++ " must be at least 1".toList
  | .notABoolean name raw => name ++ " must be a boolean, got ".toList ++ Text.quoted raw

/-! ## Integers -/

/-- The spaces that may stand around an integer. -/
def isAsciiSpace (c : Char) : Bool :=
  c = ' ' || (decide (9 ≤ c.toNat) && decide (c.toNat ≤ 13))

/-- A text without ASCII counterparts of its other characters is an ASCII text already; otherwise
blanks become spaces and decimal digits ASCII digits.  A character that is neither stands for
itself. -/
def asciiForm (text : Text) : Text :=
  if text.all (·.toNat < 128) then text
  else text.map fun c =>
    if c.toNat < 127 then c
    else if Unicode.isBlank c then ' '
    else match Unicode.digitValue? c with
      | some value => value.digitChar
      | none => c

/-- The digits of a text in which single underscores may separate digits. -/
def ungroup? : Text → Option Text
  | [] => none
  | [c] => if c.isDigit then some [c] else none
  | c :: '_' :: rest => if c.isDigit then (ungroup? rest).map (c :: ·) else none
  | c :: rest => if c.isDigit then (ungroup? rest).map (c :: ·) else none

def trimSpaces (text : Text) : Text :=
  ((text.dropWhile isAsciiSpace).reverse.dropWhile isAsciiSpace).reverse

def readInteger? (raw : Text) : Option Int :=
  let (negative, body) := takeSign (trimSpaces (asciiForm raw))
  (ungroup? body).bind fun digits => IntegerNumeral.toInt? ⟨negative, digits⟩

/-! ## Options -/

namespace ParserOptions

def depthVariable : Text := "ELENGINE_MAX_DEPTH".toList

def conditionalVariable : Text := "ELENGINE_CONDITIONAL".toList

def matchVariable : Text := "ELENGINE_MATCH".toList

def joinVariable : Text := "ELENGINE_JOIN".toList

def noWords : List Text := ["0".toList, "false".toList, "no".toList, "off".toList]

def yesWords : List Text := ["1".toList, "true".toList, "yes".toList, "on".toList]

/-- What a variable holds, unless that is nothing. -/
def setting? (environment : Environment) (name : Text) : Option Text :=
  (environment name).filter (· ≠ [])

def readDepth (environment : Environment) (default : Nat) : Except OptionsError Nat :=
  match setting? environment depthVariable with
  | none => .ok default
  | some raw =>
    match readInteger? raw with
    | none => .error (.notAnInteger depthVariable raw)
    | some depth => if depth < 1 then .error (.depthTooSmall depthVariable) else .ok depth.toNat

def readFlag (environment : Environment) (name : Text) (default : Bool) :
    Except OptionsError Bool :=
  match setting? environment name with
  | none => .ok default
  | some raw =>
    let word := Unicode.lower (Text.trim raw)
    if word ∈ noWords then .ok false
    else if word ∈ yesWords then .ok true
    else .error (.notABoolean name raw)

def ofEnvironment (environment : Environment) : Except OptionsError ParserOptions := do
  let defaults : ParserOptions := {}
  let maxDepth ← readDepth environment defaults.maxDepth
  let conditionalAllowed ← readFlag environment conditionalVariable defaults.conditionalAllowed
  let matchAllowed ← readFlag environment matchVariable defaults.matchAllowed
  let joinAllowed ← readFlag environment joinVariable defaults.joinAllowed
  return { maxDepth, conditionalAllowed, matchAllowed, joinAllowed }

end ParserOptions

end ExprLang
