import ExprLang.Value.Equality

/-!
# Expressions

The syntax trees of the language.  Operators are told apart by their meaning, however they are
spelled in a source.  Trees may also be built by hand, so there are operators and nodes that no
parser builds: `unknown` and `foreign`.

* `same` — equality of trees, which compares literals by value: `1`, `1.0` and `true` are one.
-/

namespace ExprLang

inductive UnaryOperator where
  | not
  | negate
  | empty
  | unknown (symbol : Text)
  deriving DecidableEq, Repr, Inhabited

namespace UnaryOperator

def symbol : UnaryOperator → Text
  | .not => ['!']
  | .negate => ['-']
  | .empty => "empty".toList
  | .unknown symbol => symbol

end UnaryOperator

inductive BinaryOperator where
  | or
  | and
  | eq
  | ne
  | wildcard
  | lt
  | le
  | gt
  | ge
  | add
  | subtract
  | join
  | multiply
  | divide
  | modulo
  | unknown (symbol : Text)
  deriving DecidableEq, Repr, Inhabited

namespace BinaryOperator

/-- The operators that the parser builds. -/
def known : List BinaryOperator := [
  .or, .and, .eq, .ne, .wildcard, .lt, .le, .gt, .ge, .add, .subtract, .join, .multiply, .divide,
  .modulo]

def symbol : BinaryOperator → Text
  | .or => ['|', '|']
  | .and => ['&', '&']
  | .eq => ['=', '=']
  | .ne => ['!', '=']
  | .wildcard => ['~', '=']
  | .lt => ['<']
  | .le => ['<', '=']
  | .gt => ['>']
  | .ge => ['>', '=']
  | .add => ['+']
  | .subtract => ['-']
  | .join => ['#']
  | .multiply => ['*']
  | .divide => ['/']
  | .modulo => ['%']
  | .unknown symbol => symbol

end BinaryOperator

inductive Expr where
  | literal (value : Value)
  | identifier (name : Text)
  | unary (operator : UnaryOperator) (operand : Expr)
  | binary (operator : BinaryOperator) (left right : Expr)
  | conditional (condition thenBranch elseBranch : Expr)
  /-- `object.name` -/
  | member (object : Expr) (name : Text)
  /-- `object[key]` -/
  | index (object key : Expr)
  | call (qualifier : Option Text) (name : Text) (arguments : List Expr)
  /-- A node of a type that the language does not know. -/
  | foreign (typeName : Text)
  deriving Inhabited, Repr

namespace Expr

/-- Operands of these shapes are written in parentheses. -/
def isCompound : Expr → Bool
  | .unary _ _ => true
  | .binary _ _ _ => true
  | .conditional _ _ _ => true
  | _ => false

def isNumericLiteral : Expr → Bool
  | .literal value => value.isNumber
  | _ => false

mutual

/-- Whether two trees are equal. -/
def same : Expr → Expr → Bool
  | .literal v, .literal w => v.equal w
  | .identifier a, .identifier b => decide (a = b)
  | .unary o x, .unary p y => decide (o.symbol = p.symbol) && same x y
  | .binary o x x', .binary p y y' => decide (o.symbol = p.symbol) && same x y && same x' y'
  | .conditional x x' x'', .conditional y y' y'' => same x y && same x' y' && same x'' y''
  | .member x a, .member y b => same x y && decide (a = b)
  | .index x x', .index y y' => same x y && same x' y'
  | .call q a xs, .call r b ys => decide (a = b) && sameAll xs ys && decide (q = r)
  | .foreign a, .foreign b => decide (a = b)
  | _, _ => false

def sameAll : List Expr → List Expr → Bool
  | [], [] => true
  | x :: xs, y :: ys => same x y && sameAll xs ys
  | _, _ => false

end

end Expr

end ExprLang
