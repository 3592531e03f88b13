import ExprLang.CommandLine.Basic
import ExprLang.CommandLine.VariablesFile
import ExprLang.Text.ControlSequence

/-!
# Tools for the command line

Variables files in flow notation, and printing to outputs that are no terminals: these get neither
control sequences nor, as these are nothing else, colours.

* `Tools.plain` — the tools that the program runs with.
* `Tools.PrintsPlainly` — a text without control sequences is printed as it is; so it is by the
  plain tools, `printsPlainly_plain`.
-/

namespace ExprLang

/-- A file that cannot be loaded ends the program with a failure from underneath. -/
def FlowError.failure : FlowError → Failure
  | .malformed => .host "ParserError".toList "expected a value in flow notation".toList
  | .oversized => .host "ValueError".toList "integer with too many digits".toList

namespace CommandLine

namespace Tools

/-- A text in a line of its own, without its control sequences. -/
def plainLine (text : Text) : Text :=
  text.plain ++ ['\n']

def plain : Tools where
  load content := (Flow.read content).mapError FlowError.failure
  print := plainLine
  printError := plainLine
  wording := {
    infiniteDividend := "math domain error".toList
    textlessContainer := fun type => "'".toList ++ type ++ "' object has no text".toList
    unquotable := "integer with too many digits".toList
    wrongArgumentCount := fun function _ => function ++ "() got a wrong number of arguments".toList
    noItems := fun type => "'".toList ++ type ++ "' object is not iterable".toList }

/-- Printing takes control sequences out, if that, and adds nothing else to a line. -/
structure PrintsPlainly (tools : Tools) : Prop where
  print_eq : ∀ text, Text.escapeChar ∉ text → tools.print text = text ++ ['\n']
  printError_eq : ∀ text, Text.escapeChar ∉ text → tools.printError text = text ++ ['\n']

theorem plainLine_eq {text : Text} (h : Text.escapeChar ∉ text) :
    plainLine text = text ++ ['\n'] := by
  rw [plainLine, Text.plain_eq_self h]

theorem printsPlainly_plain : plain.PrintsPlainly where
  print_eq _ := plainLine_eq
  printError_eq _ := plainLine_eq

end Tools

end CommandLine

end ExprLang
