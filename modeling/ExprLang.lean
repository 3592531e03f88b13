import ExprLang.CommandLine.Arguments
import ExprLang.CommandLine.Basic
import ExprLang.CommandLine.Plain
import ExprLang.CommandLine.VariablesFile
import ExprLang.Eval.Access
import ExprLang.Eval.Basic
import ExprLang.Eval.Operators
import ExprLang.Eval.Wildcard
import ExprLang.Expr.Basic
import ExprLang.Expr.Parser
import ExprLang.Expr.Printer
import ExprLang.Expr.Spine
import ExprLang.Expr.SyntaxError
import ExprLang.Failure.Basic
import ExprLang.Host.Basic
import ExprLang.Host.Documentation
import ExprLang.Host.Registry
import ExprLang.Host.RegistryStep
import ExprLang.Host.Variables
import ExprLang.Library.Basic
import ExprLang.Library.Functions
import ExprLang.Library.Texts
import ExprLang.Number.Decimal
import ExprLang.Number.Double
import ExprLang.Number.Numeral
import ExprLang.Number.Rounding
import ExprLang.Options.Basic
import ExprLang.Options.Environment
import ExprLang.Template.Basic
import ExprLang.Text.Basic
import ExprLang.Text.ControlSequence
import ExprLang.Text.Location
import ExprLang.Text.Quoted
import ExprLang.Text.Search
import ExprLang.Token.Basic
import ExprLang.Token.Lexeme
import ExprLang.Token.Lexer
import ExprLang.Unicode.Alphanumeric
import ExprLang.Unicode.Blank
import ExprLang.Unicode.CaseTable
import ExprLang.Unicode.CodeRange
import ExprLang.Unicode.Digit
import ExprLang.Unicode.LetterCase
import ExprLang.Unicode.Printable
import ExprLang.Value.Basic
import ExprLang.Value.Coercion
import ExprLang.Value.Equality
import ExprLang.Value.Quoted
import ExprLang.Value.Text
import ExprLang.Main
import ExprLang.Proofs.BrokenSources
import ExprLang.Proofs.CallOrder
import ExprLang.Proofs.EarliestError
import ExprLang.Proofs.ErrorPlaces
import ExprLang.Proofs.EvalCommand
import ExprLang.Proofs.EvaluationDepth
import ExprLang.Proofs.EvaluationFailures
import ExprLang.Proofs.EvaluationRules
import ExprLang.Proofs.FirstFailure
import ExprLang.Proofs.Grammar
import ExprLang.Proofs.HiddenAttributes
import ExprLang.Proofs.LexemeReading
import ExprLang.Proofs.LexerExactness
import ExprLang.Proofs.LexerRuns
import ExprLang.Proofs.LexicalGrammar
import ExprLang.Proofs.LocalReading
import ExprLang.Proofs.NumberText
import ExprLang.Proofs.OptionRelaxation
import ExprLang.Proofs.PairedRuns
import ExprLang.Proofs.ParsedSources
import ExprLang.Proofs.ParsedTrees
import ExprLang.Proofs.ParserCompleteness
import ExprLang.Proofs.ParserExactness
import ExprLang.Proofs.ParserLocality
import ExprLang.Proofs.ParserSoundness
import ExprLang.Proofs.PrinterRoundTrip
import ExprLang.Proofs.Recursion
import ExprLang.Proofs.RegistryHistory
import ExprLang.Proofs.Respacing
import ExprLang.Proofs.Respelling
import ExprLang.Proofs.ShortestDecimal
import ExprLang.Proofs.SkippedParts
import ExprLang.Proofs.SourceReading
import ExprLang.Proofs.Spelling
import ExprLang.Proofs.TemplateConcatenation
import ExprLang.Proofs.TemplateExactness
import ExprLang.Proofs.UndefinedVariables
import ExprLang.Proofs.WellFormedTrees
import ExprLang.Proofs.WildcardLanguage
import ExprLang.Proofs.ContainerEquality
import ExprLang.Proofs.ContainerOrder
import ExprLang.Proofs.ComparisonLaws
import ExprLang.Proofs.FailureOrigin
import ExprLang.Proofs.DoubleRange
import ExprLang.Proofs.SumOrText
import ExprLang.Proofs.BooleanChains
import ExprLang.Proofs.IntegerArithmetic
import ExprLang.Proofs.TextOperands
import ExprLang.Proofs.FirstBadSection
import ExprLang.Proofs.TextSearch
import ExprLang.Proofs.Replacement
import ExprLang.Proofs.DocumentedFunctions
import ExprLang.Proofs.Relabelling
import ExprLang.Proofs.MissingEnd
import ExprLang.Proofs.SplitTokens
import ExprLang.Proofs.MarkupEscapes
import ExprLang.Proofs.AccessNotation
import ExprLang.Proofs.IntegerSetting
import ExprLang.Proofs.EnvironmentOptions
import ExprLang.Proofs.StringLiterals
import ExprLang.Proofs.NearestDouble
import ExprLang.Proofs.NumericTexts
