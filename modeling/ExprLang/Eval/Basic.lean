import ExprLang.Eval.Access
import ExprLang.Eval.Operators
import ExprLang.Expr.Spine
import ExprLang.Host.Basic

/-!
# Evaluation

The value of an expression against a host.  Operands are evaluated from left to right, and only as
far as they are needed: `&&`, `||` and conditionals leave out what does not decide, and a chain of
accesses ends at the first null.

* `evaluate` — the value of a tree.
* `evaluateBoolean` — that value as a boolean.
-/

namespace ExprLang

namespace Evaluation

def ofCoercion {α : Type} (result : Except CoercionError α) : Evaluation α :=
  ofResult (Failure.ofCoercion result)

/-- A binary operator on the value on its left and the computation on its right. -/
def applyBinary (operator : BinaryOperator) (left : Value) (right : Evaluation Value) :
    Evaluation Value :=
  match operator with
  | .and => do
    if ← ofCoercion left.toBoolean then
      return .boolean (← ofCoercion (← right).toBoolean)
    else
      return .boolean false
  | .or => do
    if ← ofCoercion left.toBoolean then
      return .boolean true
    else
      return .boolean (← ofCoercion (← right).toBoolean)
  | operator => do
    let value ← right
    ofResult (operator.apply left value)

/-- The accesses of a chain on an object, from the inside out; `key` computes what a link looks up.
The walk is over at the first null, be it an object or a key, and what is left of the chain is not
evaluated. -/
def walk {α : Type} (key : α → Evaluation Value) : List α → Value → Evaluation Value
  | [], object => return object
  | link :: links, object => do
    if object.isNull then
      return .null
    else
      let key' ← key link
      if key'.isNull then
        return .null
      else
        walk key links (← ofResult (object.access key'))

end Evaluation

open Evaluation

/-- The value of an expression.  Spines of operators are folded and chains of accesses are walked
from the inside out. -/
def evaluate (host : Host) : Expr → Evaluation Value
  | .literal value => return value
  | .identifier name => host.askVariable name
  | .unary operator operand => do
    let value ← evaluate host operand
    ofResult (operator.apply value)
  | .binary operator left right => do
    let spine := left.spineOnto [(operator, right)]
    let first ← evaluate host spine.1
    spine.2.attach.foldlM (fun value link =>
      applyBinary link.1.1 value (evaluate host link.1.2)) first
  | .conditional condition thenBranch elseBranch => do
    let value ← evaluate host condition
    if ← ofCoercion value.toBoolean then evaluate host thenBranch else evaluate host elseBranch
  | .member object name => do
    let chain := object.chainOnto [.name name]
    let base ← evaluate host chain.1
    walk (fun link =>
      match link with
      | ⟨.name name, _⟩ => pure (.string name)
      | ⟨.key key, _⟩ => evaluate host key) chain.2.attach base
  | .index object key => do
    let chain := object.chainOnto [.key key]
    let base ← evaluate host chain.1
    walk (fun link =>
      match link with
      | ⟨.name name, _⟩ => pure (.string name)
      | ⟨.key key, _⟩ => evaluate host key) chain.2.attach base
  | .call qualifier name arguments => do
    let function ← host.askFunction qualifier name
    let values ← arguments.attach.mapM fun argument => evaluate host argument.1
    Host.call qualifier name function values
  | .foreign name => throw (.unknownNode name)
termination_by e => sizeOf e
decreasing_by
  · rw [Expr.unary.sizeOf_spec]; omega
  · exact Nat.lt_of_le_of_lt (Expr.sizeOf_spineOnto_base left [(operator, right)])
      (Expr.sizeOf_left_lt operator left right)
  · rcases Expr.sizeOf_spineOnto_link link.2 with h | h
    · rw [List.mem_singleton.1 h]
      exact Expr.sizeOf_right_lt operator left right
    · exact Nat.lt_trans h (Expr.sizeOf_left_lt operator left right)
  · rw [Expr.conditional.sizeOf_spec]; omega
  · rw [Expr.conditional.sizeOf_spec]; omega
  · rw [Expr.conditional.sizeOf_spec]; omega
  · exact Nat.lt_of_le_of_lt (Expr.sizeOf_chainOnto_base object [.name name])
      (Expr.sizeOf_object_lt_member object name)
  · rename_i hmem
    rcases Expr.sizeOf_chainOnto_key hmem with h | h
    · cases List.mem_singleton.1 h
    · exact Nat.lt_trans h (Expr.sizeOf_object_lt_member object name)
  · exact Nat.lt_of_le_of_lt (Expr.sizeOf_chainOnto_base object [.key key])
      (Expr.sizeOf_object_lt_index object key)
  · rename_i hmem
    rcases Expr.sizeOf_chainOnto_key hmem with h | h
    · cases List.mem_singleton.1 h
      exact Expr.sizeOf_key_lt object key
    · exact Nat.lt_trans h (Expr.sizeOf_object_lt_index object _)
  · have := List.sizeOf_lt_of_mem argument.2
    rw [Expr.call.sizeOf_spec]
    omega

/-- The value of an expression as a boolean. -/
def evaluateBoolean (host : Host) (e : Expr) : Evaluation Bool := do
  ofCoercion (← evaluate host e).toBoolean

end ExprLang
