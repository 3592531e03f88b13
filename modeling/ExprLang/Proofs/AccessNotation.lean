import ExprLang.Host.Variables
import ExprLang.Library.Basic
import ExprLang.Proofs.EvaluationRules
import Mathlib.Data.List.Forall2

/-!
# Dots and brackets

A member can be written behind a dot, by its name, or between brackets, by the literal of that name.
The two are stored as different nodes, and the walk along a chain takes another branch for each.
Which one stands where is of no consequence: trees that differ in this alone are evaluated alike.

* `Renotated` — trees with the same accesses, in whatever notation.
* `evaluate_member_eq_index` — the two notations of one access.
* `evaluate_renotated` — the notation does not matter anywhere in a tree.
-/

namespace ExprLang

open Evaluation

/-- The second tree is the first one with some members by name written as indices by the literal of
the name, and some such indices as members by name. -/
inductive Renotated : Expr → Expr → Prop where
  | literal (value : Value) : Renotated (.literal value) (.literal value)
  | identifier (name : Text) : Renotated (.identifier name) (.identifier name)
  | foreign (typeName : Text) : Renotated (.foreign typeName) (.foreign typeName)
  | unary {operator : UnaryOperator} {operand operand' : Expr} :
    Renotated operand operand' → Renotated (.unary operator operand) (.unary operator operand')
  | binary {operator : BinaryOperator} {left left' right right' : Expr} :
    Renotated left left' → Renotated right right' →
    Renotated (.binary operator left right) (.binary operator left' right')
  | conditional {condition condition' thenBranch thenBranch' elseBranch elseBranch' : Expr} :
    Renotated condition condition' → Renotated thenBranch thenBranch' →
    Renotated elseBranch elseBranch' →
    Renotated (.conditional condition thenBranch elseBranch)
      (.conditional condition' thenBranch' elseBranch')
  | member {object object' : Expr} {name : Text} :
    Renotated object object' → Renotated (.member object name) (.member object' name)
  | index {object object' key key' : Expr} :
    Renotated object object' → Renotated key key' →
    Renotated (.index object key) (.index object' key')
  | call {qualifier : Option Text} {name : Text} {arguments arguments' : List Expr} :
    List.Forall₂ Renotated arguments arguments' →
    Renotated (.call qualifier name arguments) (.call qualifier name arguments')
  | toBrackets {object object' : Expr} {name : Text} :
    Renotated object object' →
    Renotated (.member object name) (.index object' (.literal (.string name)))
  | toDot {object object' : Expr} {name : Text} :
    Renotated object object' →
    Renotated (.index object (.literal (.string name))) (.member object' name)

section

variable {host : Host} {e e' : Expr}

/-- An access by name is one by the literal of the name. -/
theorem evaluate_member_eq_index (object : Expr) (name : Text) :
    evaluate host (.member object name) =
      evaluate host (.index object (.literal (.string name))) := by
  rw [evaluate_member, evaluate_index, evaluate_literal]

theorem evaluate_index_congr {object object' key key' : Expr}
    (hobject : evaluate host object = evaluate host object')
    (hkey : evaluate host key = evaluate host key') :
    evaluate host (.index object key) = evaluate host (.index object' key') := by
  rw [evaluate_index, evaluate_index, hobject, hkey]

theorem mapM_evaluate_congr {arguments arguments' : List Expr}
    (harguments : List.Forall₂ Renotated arguments arguments')
    (h : ∀ argument ∈ arguments, ∀ {argument' : Expr}, Renotated argument argument' →
      evaluate host argument = evaluate host argument') :
    arguments.mapM (evaluate host) = arguments'.mapM (evaluate host) := by
  induction harguments with
  | nil => rfl
  | cons hargument _ ih =>
    obtain ⟨hfirst, hothers⟩ := List.forall_mem_cons.1 h
    rw [List.mapM_cons, List.mapM_cons, hfirst hargument, ih hothers]

/-- **Dotted and bracketed access mean the same.**  A tree in which any accesses are written in the
other notation is the same computation: against every host and from every state of the exchange with
it, the same value or the same failure comes out, after the same look-ups and calls. -/
theorem evaluate_renotated (h : Renotated e e') (host : Host) :
    evaluate host e = evaluate host e' := by
  induction e using Expr.induction_parts generalizing e' with
  | node e ih =>
    cases h with
    | literal | identifier | foreign => rfl
    | unary hoperand =>
      rw [evaluate_unary, evaluate_unary, ih _ (by simp [Expr.parts]) hoperand]
    | binary hleft hright =>
      rw [evaluate_binary, evaluate_binary, ih _ (by simp [Expr.parts]) hleft,
        ih _ (by simp [Expr.parts]) hright]
    | conditional hcondition hthen helse =>
      rw [evaluate_conditional, evaluate_conditional, ih _ (by simp [Expr.parts]) hcondition,
        ih _ (by simp [Expr.parts]) hthen, ih _ (by simp [Expr.parts]) helse]
    | member hobject =>
      rw [evaluate_member, evaluate_member, ih _ (by simp [Expr.parts]) hobject]
    | index hobject hkey =>
      exact evaluate_index_congr (ih _ (by simp [Expr.parts]) hobject)
        (ih _ (by simp [Expr.parts]) hkey)
    | call harguments =>
      rw [evaluate_call, evaluate_call, mapM_evaluate_congr harguments ih]
    | toBrackets hobject =>
      rw [evaluate_member_eq_index]
      exact evaluate_index_congr (ih _ (by simp [Expr.parts]) hobject) rfl
    | toDot hobject =>
      rw [evaluate_member_eq_index]
      exact evaluate_index_congr (ih _ (by simp [Expr.parts]) hobject) rfl

end

/-- `fn:trim(user['name']) + missing.a['b']` in the other notation throughout, within a call and in
a chain that ends at a null. -/
theorem evaluate_renotated_chain :
    let host := Host.ofVariables
      [("user".toList, .dict [(.string "name".toList, .string " Ann ".toList)])] .builtin
    let user := Expr.identifier "user".toList
    let missing := Expr.identifier "missing".toList
    let e := Expr.binary .add
      (.call (some "fn".toList) "trim".toList [.index user (.literal (.string "name".toList))])
      (.index (.member missing ['a']) (.literal (.string ['b'])))
    let e' := Expr.binary .add
      (.call (some "fn".toList) "trim".toList [.member user "name".toList])
      (.member (.index missing (.literal (.string ['a']))) ['b'])
    Renotated e e' ∧ e ≠ e' ∧ evaluate host e = evaluate host e' := by
  intro host user missing e e'
  have h : Renotated e e' :=
    .binary (.call (.cons (.toDot (.identifier _)) .nil)) (.toDot (.toBrackets (.identifier _)))
  exact ⟨h, by simp [e, e'], evaluate_renotated h host⟩

end ExprLang
