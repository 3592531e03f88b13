import ExprLang.Expr.Basic
import ExprLang.Failure.Basic
import ExprLang.Value.Quoted

/-!
# Expressions as source text

Compound operands are put in parentheses, so that the text does not lean on precedence.  A number
in front of a member access is put in parentheses too, because `1.x` is a malformed number.  Texts
are written between double quotes.

* `toSource` — the source of a tree; there is none for foreign nodes and for literals without a
  text.
-/

namespace ExprLang

/-- A character inside double quotes. -/
def stringEscape (c : Char) : Text :=
  if c = '\\' then ['\\', '\\']
  else if c = '"' then ['\\', '"']
  else if c = '\n' then ['\\', 'n']
  else if c = '\t' then ['\\', 't']
  else if c = '\r' then ['\\', 'r']
  else [c]

def stringSource (text : Text) : Text :=
  '"' :: text.flatMap stringEscape ++ ['"']

def literalSource : Value → Except Failure Text
  | .null => .ok "null".toList
  | .boolean b => .ok (if b then "true".toList else "false".toList)
  | .string text => .ok (stringSource text)
  | v =>
    match v.quoted? with
    | some text => .ok text
    | none => .error .unquotable

namespace Expr

def parenthesised (text : Text) : Text :=
  '(' :: text ++ [')']

/-- The source of `operand` where an operand stands. -/
def asOperand (operand : Expr) (source : Text) : Text :=
  if operand.isCompound then parenthesised source else source

/-- The source of `base` in front of a member or an index. -/
def asBase (base : Expr) (source : Text) : Text :=
  if base.isNumericLiteral then parenthesised source else base.asOperand source

mutual

def toSource : Expr → Except Failure Text
  | .literal value => literalSource value
  | .identifier name => .ok name
  | .unary operator operand => do
    let source ← toSource operand
    let gap := match operator with
      | .empty => [' ']
      | _ => []
    return operator.symbol ++ gap ++ operand.asOperand source
  | .binary operator left right => do
    let leftSource ← toSource left
    let rightSource ← toSource right
    return left.asOperand leftSource ++ ' ' :: operator.symbol ++ ' ' :: right.asOperand rightSource
  | .conditional condition thenBranch elseBranch => do
    let conditionSource ← toSource condition
    let thenSource ← toSource thenBranch
    let elseSource ← toSource elseBranch
    return condition.asOperand conditionSource ++ " ? ".toList ++ thenBranch.asOperand thenSource
      ++ " : ".toList ++ elseBranch.asOperand elseSource
  | .member object name => do
    let source ← toSource object
    return object.asBase source ++ '.' :: name
  | .index object key => do
    let source ← toSource object
    let keySource ← toSource key
    return object.asBase source ++ '[' :: keySource ++ [']']
  | .call qualifier name arguments => do
    let sources ← toSources arguments
    return qualifiedName qualifier name ++ parenthesised (Text.joinWith [',', ' '] sources)
  | .foreign name => .error (.unknownNode name)

def toSources : List Expr → Except Failure (List Text)
  | [] => .ok []
  | x :: xs => do
    let source ← toSource x
    let sources ← toSources xs
    return source :: sources

end

end Expr

end ExprLang
