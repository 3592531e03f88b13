import ExprLang.Proofs.FirstFailure
import ExprLang.Proofs.SourceReading

/-!
# The trees that a source is read as

What holds of every node that the parser builds holds all over its trees, and so of every node that
an evaluation of such a tree comes to.

* `Expr.Everywhere` — a property of nodes that holds all over a tree.
* `everywhere_isBuilt_of_parse` — no tree of a source has an unknown operator or a foreign node.
-/

namespace ExprLang

namespace Expr

/-- The property holds of all nodes of the tree. -/
inductive Everywhere (P : Expr → Prop) : Expr → Prop where
  | node {e : Expr} : P e → (∀ part ∈ e.parts, Everywhere P part) → Everywhere P e

/-- The nodes that the parser builds. -/
def IsBuilt : Expr → Prop
  | .unary (.unknown _) _ | .binary (.unknown _) _ _ | .foreign _ => False
  | _ => True

section

variable {P : Expr → Prop} {e node : Expr}

theorem Everywhere.here (h : e.Everywhere P) : P e := by
  cases h with
  | node h _ => exact h

theorem Everywhere.parts (h : e.Everywhere P) : ∀ part ∈ e.parts, part.Everywhere P := by
  cases h with
  | node _ h => exact h

theorem Everywhere.visited {host : Host} {t t' : Trace} (h : e.Everywhere P)
    (hvisits : Visits host e t node t') : P node := by
  induction hvisits with
  | here => exact h.here
  | inside henters _ ih => exact ih (h.parts _ henters.mem_parts)

end

end Expr

section

variable {options : ParserOptions} {e : Expr}

theorem isBuilt_unary {type : TokenType} {operator : UnaryOperator} {operand : Expr}
    (h : (type, operator) ∈ frontOperators) : (Expr.unary operator operand).IsBuilt := by
  cases operator with
  | unknown => simp [frontOperators] at h
  | _ => trivial

theorem isBuilt_binary {level : Level} {type : TokenType} {operator : BinaryOperator}
    {left right : Expr} (h : (type, operator) ∈ level.operators) :
    (Expr.binary operator left right).IsBuilt := by
  cases operator with
  | unknown => cases level <;> simp [Level.operators] at h
  | _ => trivial

theorem Derives.everywhere_isBuilt {level : Level} {ts : List Token} {n : Nat}
    (h : Derives options level ts e n) : e.Everywhere Expr.IsBuilt := by
  induction h with
  | plain _ ih | lift _ _ ih | group _ _ _ ih => exact ih
  | conditional _ _ _ _ _ _ ih ih' ih'' =>
    exact .node trivial (by simpa [Expr.parts] using ⟨ih, ih', ih''⟩)
  | binary _ hsign _ _ _ ih ih' =>
    exact .node (isBuilt_binary hsign) (by simpa [Expr.parts] using ⟨ih, ih'⟩)
  | unary hsign _ ih => exact .node (isBuilt_unary hsign) (by simpa [Expr.parts] using ih)
  | member _ _ _ ih => exact .node trivial (by simpa [Expr.parts] using ih)
  | index _ _ _ _ ih ih' => exact .node trivial (by simpa [Expr.parts] using ⟨ih, ih'⟩)
  | literal | identifier => exact .node trivial (by simp [Expr.parts])
  | call _ _ _ _ _ ih => exact .node trivial (by simpa [Expr.parts] using ih)

/-- The tree of a source has no unknown operator and no foreign node. -/
theorem everywhere_isBuilt_of_parse {source : Text} (h : parse options source = .ok e) :
    e.Everywhere Expr.IsBuilt := by
  obtain ⟨pieces, last, n, -, -, hd⟩ := parse_eq_ok_iff.1 h
  exact hd.everywhere_isBuilt

end

end ExprLang
