import ExprLang.Expr.Basic

/-!
# Chains of operators and of accesses

`a + b * c - d` leans to the left: its spine is the leftmost operand with the operators and right
operands that follow, from the inside out.  In the same way `a.b[c].d` is a base with a chain of
accessors.  Both are collected in a loop, so that their length is no depth.

* `sizeOf_spineOnto_base`, `sizeOf_spineOnto_link` — the parts of a spine are smaller than the tree.
* `sizeOf_chainOnto_base`, `sizeOf_chainOnto_key` — and so are the parts of a chain.
-/

namespace ExprLang

/-- A member by its name, or an index by its expression. -/
inductive Accessor where
  | name (name : Text)
  | key (key : Expr)
  deriving Repr

namespace Expr

/-- The leftmost operand that is no binary operation, and the operators with their right operands in
front of `links`. -/
def spineOnto : Expr → List (BinaryOperator × Expr) → Expr × List (BinaryOperator × Expr)
  | .binary operator left right, links => spineOnto left ((operator, right) :: links)
  | e, links => (e, links)

/-- The innermost object that is no access, and the accessors in front of `links`. -/
def chainOnto : Expr → List Accessor → Expr × List Accessor
  | .member object name, links => chainOnto object (.name name :: links)
  | .index object key, links => chainOnto object (.key key :: links)
  | e, links => (e, links)

theorem sizeOf_left_lt (operator : BinaryOperator) (left right : Expr) :
    sizeOf left < sizeOf (Expr.binary operator left right) := by
  rw [Expr.binary.sizeOf_spec]; omega

theorem sizeOf_right_lt (operator : BinaryOperator) (left right : Expr) :
    sizeOf right < sizeOf (Expr.binary operator left right) := by
  rw [Expr.binary.sizeOf_spec]; omega

theorem sizeOf_object_lt_member (object : Expr) (name : Text) :
    sizeOf object < sizeOf (Expr.member object name) := by
  rw [Expr.member.sizeOf_spec]; omega

theorem sizeOf_object_lt_index (object key : Expr) :
    sizeOf object < sizeOf (Expr.index object key) := by
  rw [Expr.index.sizeOf_spec]; omega

theorem sizeOf_key_lt (object key : Expr) : sizeOf key < sizeOf (Expr.index object key) := by
  rw [Expr.index.sizeOf_spec]; omega

theorem sizeOf_spineOnto_base (e : Expr) (links : List (BinaryOperator × Expr)) :
    sizeOf (e.spineOnto links).1 ≤ sizeOf e := by
  fun_induction spineOnto e links with
  | case1 _ _ _ _ ih =>
    exact Nat.le_trans ih (Nat.le_of_lt (sizeOf_left_lt _ _ _))
  | case2 => exact Nat.le_refl _

theorem sizeOf_spineOnto_link {e : Expr} {links : List (BinaryOperator × Expr)}
    {link : BinaryOperator × Expr} (h : link ∈ (e.spineOnto links).2) :
    link ∈ links ∨ sizeOf link.2 < sizeOf e := by
  fun_induction spineOnto e links with
  | case1 _ _ _ _ ih =>
    rcases ih h with hmem | hlt
    · rcases List.mem_cons.1 hmem with rfl | hmem
      · exact .inr (sizeOf_right_lt _ _ _)
      · exact .inl hmem
    · exact .inr (Nat.lt_trans hlt (sizeOf_left_lt _ _ _))
  | case2 => exact .inl h

theorem sizeOf_chainOnto_base (e : Expr) (links : List Accessor) :
    sizeOf (e.chainOnto links).1 ≤ sizeOf e := by
  fun_induction chainOnto e links with
  | case1 _ _ _ ih =>
    exact Nat.le_trans ih (Nat.le_of_lt (sizeOf_object_lt_member _ _))
  | case2 _ _ _ ih =>
    exact Nat.le_trans ih (Nat.le_of_lt (sizeOf_object_lt_index _ _))
  | case3 => exact Nat.le_refl _

theorem sizeOf_chainOnto_key {e key : Expr} {links : List Accessor}
    (h : .key key ∈ (e.chainOnto links).2) : .key key ∈ links ∨ sizeOf key < sizeOf e := by
  fun_induction chainOnto e links with
  | case1 _ _ _ ih =>
    rcases ih h with hmem | hlt
    · rcases List.mem_cons.1 hmem with heq | hmem
      · cases heq
      · exact .inl hmem
    · exact .inr (Nat.lt_trans hlt (sizeOf_object_lt_member _ _))
  | case2 _ _ _ ih =>
    rcases ih h with hmem | hlt
    · rcases List.mem_cons.1 hmem with heq | hmem
      · cases heq
        exact .inr (sizeOf_key_lt _ _)
      · exact .inl hmem
    · exact .inr (Nat.lt_trans hlt (sizeOf_object_lt_index _ _))
  | case3 => exact .inl h

end Expr

end ExprLang
