/-!
# Parser options
-/

namespace ExprLang

/-- What the parser accepts: how deeply expressions may be nested, and which of the optional
operators belong to the language. -/
structure ParserOptions where
  maxDepth : Nat := 50
  conditionalAllowed : Bool := true
  matchAllowed : Bool := false
  joinAllowed : Bool := false
  deriving DecidableEq, Repr, Inhabited

end ExprLang
