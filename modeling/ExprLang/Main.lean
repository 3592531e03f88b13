import ExprLang.CommandLine.Plain

/-!
# The command line program

Reads the arguments, the environment and the variables file, and prints the outcome of the command.
-/

open ExprLang ExprLang.CommandLine

/-- The variables that hold parser options. -/
def readEnvironment : IO Environment := do
  let names := [ParserOptions.depthVariable, ParserOptions.conditionalVariable,
    ParserOptions.matchVariable, ParserOptions.joinVariable]
  let settings ← names.mapM fun name => do
    let value ← IO.getEnv (String.ofList name)
    return (name, value.map (·.toList))
  return fun name => (settings.lookup name).join

/-- The content of the file that the arguments name, if it can be read. -/
def readVariablesFile (arguments : List Text) : IO (Option Text) := do
  match (Arguments.parse arguments).bind (·.variablesFile?) with
  | none => return none
  | some path =>
    try
      return some (← IO.FS.readFile (String.ofList path)).toList
    catch _ =>
      return none

def main (arguments : List String) : IO UInt32 := do
  let arguments := arguments.map (·.toList)
  let environment ← readEnvironment
  let content ← readVariablesFile arguments
  let outcome := runArguments .plain environment (fun _ => content) arguments
  IO.print (String.ofList outcome.output)
  IO.eprint (String.ofList outcome.errors)
  if outcome.status = 2 then
    IO.eprintln "Usage: COMMAND [OPTIONS] [ARGUMENT], COMMAND being eval, render, tokens or functions"
  match outcome.escaped with
  | some name => IO.eprintln (String.ofList name)
  | none => pure ()
  return outcome.status.toUInt32
