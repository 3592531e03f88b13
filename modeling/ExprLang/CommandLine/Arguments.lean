import ExprLang.Host.Registry

/-!
# Command line arguments

The program has the commands `eval`, `render`, `tokens` and `functions`.  An argument that begins
with a dash is an option, unless `--` stands before it; an option that takes a value takes the next
argument, whatever it is, or what follows `=` in its own.  Options of the program itself stand
before the command.

* `Arguments.parse` — the invocation that the arguments ask for; none if they are misused.
-/

namespace ExprLang.CommandLine

/-- Where variables come from: a file, and pairs in the order in which they are given. -/
structure VariableSources where
  file : Option Text
  pairs : List Text
  deriving DecidableEq, Repr

inductive Command where
  | eval (expression : Text) (sources : VariableSources)
  | render (template : Text) (sources : VariableSources)
  | tokens (expression : Text)
  | functions (category : Option FunctionCategory) (asJson : Bool)
  deriving DecidableEq, Repr

structure Invocation where
  verbose : Bool
  command : Command
  deriving DecidableEq, Repr

/-- The file with variables that an invocation reads. -/
def Invocation.variablesFile? (invocation : Invocation) : Option Text :=
  match invocation.command with
  | .eval _ sources | .render _ sources => sources.file
  | _ => none

namespace Arguments

/-- What a command's options may look like: those with a value, and flags. -/
structure OptionNames where
  valued : List Text
  flags : List Text

/-- Options in the order given, each with its value, and the other arguments. -/
structure Parsed where
  options : List (Text × Text)
  positional : List Text

def isOption : Text → Bool
  | '-' :: _ :: _ => true
  | _ => false

/-- The name of an option and the value behind `=`, if there is one. -/
def splitValue (argument : Text) : Text × Option Text :=
  match argument.dropWhile (· ≠ '=') with
  | [] => (argument, none)
  | _ :: value => (argument.takeWhile (· ≠ '='), some value)

/-- The options and the other arguments of a command; options may stand behind arguments. -/
def collect? (names : OptionNames) : List Text → Option Parsed
  | [] => some ⟨[], []⟩
  | argument :: rest =>
    if argument = "--".toList then some ⟨[], rest⟩
    else if isOption argument then
      let (name, value?) := splitValue argument
      if name ∈ names.valued then
        match value?, rest with
        | some value, rest =>
          (collect? names rest).map fun parsed =>
            { parsed with options := (name, value) :: parsed.options }
        | none, value :: rest =>
          (collect? names rest).map fun parsed =>
            { parsed with options := (name, value) :: parsed.options }
        | none, [] => none
      else if name ∈ names.flags ∧ value? = none then
        (collect? names rest).map fun parsed =>
          { parsed with options := (name, []) :: parsed.options }
      else
        none
    else
      (collect? names rest).map fun parsed =>
        { parsed with positional := argument :: parsed.positional }

/-- The last value given for an option. -/
def last? (parsed : Parsed) (name : Text) : Option Text :=
  ((parsed.options.filter (·.1 = name)).getLast?).map (·.2)

/-- All values given for an option, in order. -/
def values (parsed : Parsed) (name : Text) : List Text :=
  (parsed.options.filter (·.1 = name)).map (·.2)

def variableOption : Text := "--var".toList

def fileOption : Text := "--vars-file".toList

def categoryOption : Text := "--category".toList

def jsonOption : Text := "--json".toList

/-- One argument and the options for variables. -/
def withVariables? (arguments : List Text) : Option (Text × VariableSources) := do
  let parsed ← collect? ⟨[variableOption, fileOption], []⟩ arguments
  match parsed.positional with
  | [argument] => some (argument, ⟨last? parsed fileOption, values parsed variableOption⟩)
  | _ => none

def functionsCommand? (arguments : List Text) : Option Command := do
  let parsed ← collect? ⟨[categoryOption], [jsonOption]⟩ arguments
  let asJson := (last? parsed jsonOption).isSome
  match parsed.positional, last? parsed categoryOption with
  | [], none => some (.functions none asJson)
  | [], some name => do some (.functions (some (← FunctionCategory.ofName? name)) asJson)
  | _, _ => none

def command? (name : Text) (arguments : List Text) : Option Command :=
  if name = "eval".toList then
    (withVariables? arguments).map fun (expression, sources) => .eval expression sources
  else if name = "render".toList then
    (withVariables? arguments).map fun (template, sources) => .render template sources
  else if name = "tokens".toList then
    (collect? ⟨[], []⟩ arguments).bind fun parsed =>
      match parsed.positional with
      | [expression] => some (.tokens expression)
      | _ => none
  else if name = "functions".toList then
    functionsCommand? arguments
  else
    none

/-- Whether an option in front of the command asks for more output. -/
def isVerbose (argument : Text) : Bool :=
  decide (argument = "--verbose".toList) ||
    (isOption argument && (argument.drop 1).all (· = 'v'))

/-- The options in front of the command, the command, and its arguments. -/
def invocation? (verbose : Bool) : List Text → Option Invocation
  | [] => none
  | argument :: rest =>
    if argument = "--".toList then
      match rest with
      | [] => none
      | name :: arguments => (command? name arguments).map (⟨verbose, ·⟩)
    else if isOption argument then
      if isVerbose argument then invocation? true rest else none
    else
      (command? argument rest).map (⟨verbose, ·⟩)

def parse (arguments : List Text) : Option Invocation :=
  invocation? false arguments

end Arguments

end ExprLang.CommandLine
