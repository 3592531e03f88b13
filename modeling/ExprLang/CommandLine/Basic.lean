import ExprLang.CommandLine.Arguments
import ExprLang.Host.Documentation
import ExprLang.Host.Variables
import ExprLang.Library.Basic
import ExprLang.Options.Environment
import ExprLang.Template.Basic

/-!
# Running a command

A command prints its result and ends with the status 0, or prints an error and ends with the status
1.  What fails outside the language, such as a value that has no text, escapes the command.

* `Tools` — what the command line leaves to others: reading a variables file, and printing.
* `run` — the outcome of an invocation in an environment, given the content of its variables file.
-/

namespace ExprLang.CommandLine

/-- What the command line leaves to others. -/
structure Tools where
  /-- The value that the content of a variables file stands for. -/
  load : Text → Except Failure Value
  /-- What is left in the output by a text that is printed in a line of its own. -/
  print : Text → Text
  /-- What is left in the error output by a text that is printed in red in a line of its own. -/
  printError : Text → Text
  /-- The wordings of the failures that are not the engine's own. -/
  wording : Wording

/-- What a run leaves behind: its status, its two outputs, and the kind of failure that has escaped
it, if one has. -/
structure Outcome where
  status : Nat
  output : Text
  errors : Text
  escaped : Option Text := none
  deriving DecidableEq, Repr

/-- Each line with a line feed. -/
def lines (texts : List Text) : Text :=
  texts.flatMap fun text => text ++ ['\n']

namespace Outcome

def success (log : List Text) (output : Text) : Outcome :=
  ⟨0, output, lines log, none⟩

/-- An error behind what has been printed already. -/
def failure (tools : Tools) (log : List Text) (output message : Text) : Outcome :=
  ⟨1, output, lines log ++ tools.printError ("Error: ".toList ++ message), none⟩

def escape (log : List Text) (typeName : Text) : Outcome :=
  ⟨1, [], lines log, some typeName⟩

/-- The outcome of arguments that are misused. -/
def misuse : Outcome :=
  ⟨2, [], [], none⟩

/-- A failed evaluation is an error if the failure is the engine's own. -/
def ofFailure (tools : Tools) (log : List Text) (f : Failure) : Outcome :=
  if f.isEvaluation then
    match f.text tools.wording with
    | .ok message => failure tools log [] message
    | .error raised => escape log raised.typeName
  else
    escape log f.typeName

end Outcome

/-! ## Variables -/

/-- Without the parts of a path that say nothing. -/
def tidyPath (path : Text) : Text :=
  let parts := (Text.fields (· = '/') path).filter (· ≠ ['.'])
  let tidy := Text.joinWith ['/'] parts
  if path.head? = some '/' then '/' :: tidy else tidy

/-- Why there are no variables. -/
inductive SourceError where
  | notAMapping (path : Text)
  | notAPair (pair : Text)
  | notLoaded (failure : Failure)
  deriving DecidableEq, Repr

/-- The name and the value of a pair, around the first equals sign. -/
def splitPair? (pair : Text) : Option (Text × Text) :=
  match pair.dropWhile (· ≠ '=') with
  | [] => none
  | _ :: value =>
    let name := pair.takeWhile (· ≠ '=')
    if name = [] then none else some (name, value)

/-- The variables with those of the pairs, which win. -/
def addPairs (known : Variables) : List Text → Except SourceError Variables
  | [] => .ok known
  | pair :: pairs =>
    match splitPair? pair with
    | none => .error (.notAPair pair)
    | some (name, value) => addPairs (known.set name (.string value)) pairs

/-- The names and values of a mapping whose keys are texts. -/
def ofEntries (entries : List (Value × Value)) : Variables :=
  entries.filterMap fun
    | (.string name, value) => some (name, value)
    | _ => none

/-- The variables of a file with this path and content. -/
def fileVariables (tools : Tools) (path content : Text) : Except SourceError Variables :=
  match tools.load content with
  | .error failure => .error (.notLoaded failure)
  | .ok .null => .ok []
  | .ok (.dict entries) => .ok (ofEntries entries)
  | .ok _ => .error (.notAMapping path)

/-- The variables of the file, then those of the pairs. -/
def readVariables (tools : Tools) (sources : VariableSources) (content : Text) :
    Except SourceError Variables :=
  match sources.file with
  | none => addPairs [] sources.pairs
  | some path =>
    match fileVariables tools (tidyPath path) content with
    | .error error => .error error
    | .ok fromFile => addPairs fromFile sources.pairs

def SourceError.outcome (tools : Tools) : SourceError → Outcome
  | .notAMapping path =>
    .failure tools [] [] (path ++ " must contain a mapping of variable names".toList)
  | .notAPair pair =>
    .failure tools [] [] ("Invalid --var '".toList ++ pair ++ "', expected NAME=VALUE".toList)
  | .notLoaded failure => .escape [] failure.typeName

/-! ## Commands -/

/-- The log lines of a trace, if they are asked for. -/
def evaluationLog (wording : Wording) (verbose : Bool) (trace : Trace) : List Text :=
  if verbose then
    trace.filterMap fun event =>
      (event.logLine? wording).map ("DEBUG elengine.evaluator: ".toList ++ ·)
  else
    []

/-- The log line of a template that has been read, if it is asked for. -/
def templateLog (verbose : Bool) (template : Template) : List Text :=
  if verbose then
    ["DEBUG elengine.template: Parsed template with ".toList
      ++ Text.ofNat template.parts.length ++ " part(s), ".toList
      ++ Text.ofNat template.expressions.length ++ " expression(s)".toList]
  else
    []

def runEval (tools : Tools) (verbose : Bool) (options : ParserOptions) (host : Host)
    (expression : Text) : Outcome :=
  match parse options expression with
  | .error error => .failure tools [] [] error.message
  | .ok tree =>
    match (evaluate host tree).start with
    | (.error f, trace) => .ofFailure tools (evaluationLog tools.wording verbose trace) f
    | (.ok value, trace) =>
      let log := evaluationLog tools.wording verbose trace
      match value.display with
      | .ok text => .success log (tools.print text)
      | .error f => .escape log f.typeName

def runRender (tools : Tools) (verbose : Bool) (options : ParserOptions) (host : Host)
    (source : Text) : Outcome :=
  match Template.parse options source with
  | .error error => .failure tools [] [] error.message
  | .ok template =>
    let (result, trace) := (template.render host).start
    let log := templateLog verbose template ++ evaluationLog tools.wording verbose trace
    match result with
    | .error f => .ofFailure tools log f
    | .ok text => .success log (tools.print text)

/-- A command that has variables: first they are read, then the options. -/
def withHost (tools : Tools) (environment : Environment) (content : Text)
    (sources : VariableSources) (body : ParserOptions → Host → Outcome) : Outcome :=
  match readVariables tools sources content with
  | .error error => error.outcome tools
  | .ok known =>
    match ParserOptions.ofEnvironment environment with
    | .error error => .failure tools [] [] error.message
    | .ok options => body options (.ofVariables known .builtin)

/-- Position, type and text of a token in columns. -/
def tokenLine (token : Token) : Text :=
  Text.padLeft 4 (Text.ofNat token.location.offset) ++ [' ', ' ']
    ++ Text.padRight 15 token.type.name.toList ++ ' ' :: token.lexeme

/-- The lines in front of a lexical error stay. -/
def runTokens (tools : Tools) (expression : Text) : Outcome :=
  let stream := TokenStream.ofSource expression
  let output := stream.tokens.flatMap fun token => tools.print (tokenLine token)
  match stream.ending with
  | .ok _ => .success [] output
  | .error error => .failure tools [] output error.message

/-- Signature and description of a function in columns. -/
def functionLine (definition : FunctionDefinition) : Text :=
  let parameters := Text.joinWith [',', ' '] (definition.parameters.map (·.name))
  [' ', ' '] ++ Text.padRight 45 (definition.qualifiedName ++ '(' :: parameters ++ [')'])
    ++ ' ' :: definition.description

def runFunctions (tools : Tools) (category : Option FunctionCategory) (asJson : Bool) : Outcome :=
  let registry := Registry.builtin
  if asJson then .success [] (tools.print (registry.document.render 0))
  else
    let definitions := match category with
      | none => registry.definitions
      | some category => registry.inCategory category
    let sorted := definitions.mergeSort fun a b =>
      !Text.less b.qualifiedName a.qualifiedName
    .success [] (sorted.flatMap fun definition => tools.print (functionLine definition))

def run (tools : Tools) (environment : Environment) (content : Text) (invocation : Invocation) :
    Outcome :=
  match invocation.command with
  | .eval expression sources =>
    withHost tools environment content sources fun options host =>
      runEval tools invocation.verbose options host expression
  | .render template sources =>
    withHost tools environment content sources fun options host =>
      runRender tools invocation.verbose options host template
  | .tokens expression => runTokens tools expression
  | .functions category asJson => runFunctions tools category asJson

/-- The outcome of arguments, with the files that exist. -/
def runArguments (tools : Tools) (environment : Environment) (files : Text → Option Text)
    (arguments : List Text) : Outcome :=
  match Arguments.parse arguments with
  | none => .misuse
  | some invocation =>
    match invocation.variablesFile? with
    | none => run tools environment [] invocation
    | some path =>
      match files path with
      | none => .misuse
      | some content => run tools environment content invocation

end ExprLang.CommandLine
