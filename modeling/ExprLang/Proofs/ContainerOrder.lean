import ExprLang.Proofs.ContainerEquality

/-!
# The order of values inside containers

Two values are compared by asking whether the first one comes before the second one and the other
way round.  Either neither question has an answer, or the answers go with equality: one of the two
comes first, or they are equal.  There is one way out of this, as what is not a number neither comes
before a number nor behind it and does not equal it.

* `DecidedByNan` — the first two items that differ are decided by what is not a number.
* `Verdict` — how the two answers and equality can go together.
* `verdict_less?` — they go together so for all values without two equal keys in a dictionary.
-/

namespace ExprLang.Value

/-- One of the values is not a number, or in two lists or tuples this holds of the first items that
differ. -/
inductive DecidedByNan : Value → Value → Prop where
  | left {mark : Option Nat} {w : Value} : w.isNull = false →
    DecidedByNan (.double (.nan mark)) w
  | right {v : Value} {mark : Option Nat} : v.isNull = false →
    DecidedByNan v (.double (.nan mark))
  | list {before before' after after' : List Value} {x y : Value} :
    equalItems before before' = true → x.equal y = false → DecidedByNan x y →
    DecidedByNan (.list (before ++ x :: after)) (.list (before' ++ y :: after'))
  | tuple {before before' after after' : List Value} {x y : Value} :
    equalItems before before' = true → x.equal y = false → DecidedByNan x y →
    DecidedByNan (.tuple (before ++ x :: after)) (.tuple (before' ++ y :: after'))

/-- How it can go together whether the first of two values is less, whether the second one is, and
whether they are equal.  Only if `undecided` holds they can be neither. -/
inductive Verdict (undecided : Prop) : Option Bool → Option Bool → Bool → Prop where
  | unordered {equal : Bool} : Verdict undecided none none equal
  | less : Verdict undecided (some true) (some false) false
  | greater : Verdict undecided (some false) (some true) false
  | equal : Verdict undecided (some false) (some false) true
  | undecided : undecided → Verdict undecided (some false) (some false) false

section

variable {P Q : Prop} {less greater : Option Bool} {equal : Bool}

theorem Verdict.imp (h : Verdict P less greater equal) (hPQ : P → Q) :
    Verdict Q less greater equal := by
  cases h with
  | unordered => exact .unordered
  | less => exact .less
  | greater => exact .greater
  | equal => exact .equal
  | undecided h => exact .undecided (hPQ h)

/-- In a linear order there is always a verdict. -/
theorem verdict_lt {α : Type} [LT α] [DecidableLT α] [DecidableEq α]
    [Std.Asymm fun a b : α => a < b] [Std.Trichotomous fun a b : α => a < b] (a b : α) :
    Verdict P (some (decide (a < b))) (some (decide (b < a))) (decide (a = b)) := by
  by_cases hless : a < b
  · have hgreater : ¬ b < a := Std.Asymm.asymm (r := fun a b : α => a < b) a b hless
    have hne : a ≠ b := fun heq => hgreater (heq ▸ hless)
    rw [decide_eq_true hless, decide_eq_false hgreater, decide_eq_false hne]
    exact .less
  · by_cases hgreater : b < a
    · have hne : a ≠ b := fun heq => hless (heq ▸ hgreater)
      rw [decide_eq_false hless, decide_eq_true hgreater, decide_eq_false hne]
      exact .greater
    · have heq : a = b :=
        Std.Trichotomous.trichotomous (r := fun a b : α => a < b) a b hless hgreater
      rw [decide_eq_false hless, decide_eq_false hgreater, decide_eq_true heq]
      exact .equal

end

theorem verdict_extended {P : Prop} (a b : Extended) :
    Verdict P (some (a.less b)) (some (b.less a)) (decide (a = b)) := by
  cases a with
  | minusInfinity =>
    cases b with
    | minusInfinity => exact .equal
    | quanta | plusInfinity => exact .less
  | quanta m =>
    cases b with
    | minusInfinity => exact .greater
    | quanta n =>
      simp only [Extended.less, Extended.quanta.injEq]
      exact verdict_lt m n
    | plusInfinity => exact .less
  | plusInfinity =>
    cases b with
    | minusInfinity | quanta => exact .greater
    | plusInfinity => exact .equal

/-! ## Numbers -/

section

variable {v w : Value}

theorem less?_of_numbers (hv : v.isOrderedNumber = true) (hw : w.isOrderedNumber = true) :
    v.less? w = match v.numeric?, w.numeric? with
      | some a, some b => some (a.less b)
      | _, _ => some false := by
  cases v with
  | boolean | long | double =>
    cases w with
    | boolean | long | double => rfl
    | _ => cases hw
  | _ => cases hv

/-- A number without a numeric value is not a number. -/
theorem nan_of_numeric? (hv : v.isOrderedNumber = true) (h : v.numeric? = none) :
    ∃ mark, v = .double (.nan mark) := by
  cases v with
  | boolean | long => cases h
  | double x =>
    rcases x with mark | (_ | _) | _
    · exact ⟨mark, rfl⟩
    all_goals cases h
  | _ => cases hv

theorem isNull_of_isOrderedNumber (hv : v.isOrderedNumber = true) : v.isNull = false := by
  cases v with
  | null => cases hv
  | _ => rfl

theorem identity?_of_numeric? {a : Extended} (h : v.numeric? = some a) :
    v.identity? = some (.number a) := by
  cases v with
  | boolean | long =>
    cases h
    rfl
  | double x =>
    rcases x with mark | (_ | _) | _
    · cases h
    all_goals
      cases h
      rfl
  | _ => cases h

theorem isContainer_of_isOrderedNumber (hv : v.isOrderedNumber = true) :
    v.isContainer = false := by
  cases v with
  | list | tuple | dict => cases hv
  | _ => rfl

theorem verdict_numbers (hv : v.isOrderedNumber = true) (hw : w.isOrderedNumber = true) :
    Verdict (DecidedByNan v w) (v.less? w) (w.less? v) (v.equal w) := by
  rw [less?_of_numbers hv hw, less?_of_numbers hw hv]
  -- What is not a number equals itself by its mark, so that both verdicts occur.
  have hnan : DecidedByNan v w →
      Verdict (DecidedByNan v w) (some false) (some false) (v.equal w) := by
    intro hdecided
    cases v.equal w with
    | true => exact .equal
    | false => exact .undecided hdecided
  cases ha : v.numeric? with
  | none =>
    obtain ⟨mark, rfl⟩ := nan_of_numeric? hv ha
    cases w.numeric? <;> exact hnan (.left (isNull_of_isOrderedNumber hw))
  | some a =>
    cases hb : w.numeric? with
    | none =>
      obtain ⟨mark, rfl⟩ := nan_of_numeric? hw hb
      exact hnan (.right (isNull_of_isOrderedNumber hv))
    | some b =>
      rw [equal_eq_of_not_isContainer (isContainer_of_isOrderedNumber hv),
        identity?_of_numeric? ha, identity?_of_numeric? hb]
      simp only [Identity.number.injEq]
      exact verdict_extended a b

end

/-! ## Items -/

/-- The first items that differ are decided by what is not a number. -/
def ItemsDecidedByNan (xs ys : List Value) : Prop :=
  ∃ before before' x y after after', xs = before ++ x :: after ∧ ys = before' ++ y :: after' ∧
    equalItems before before' = true ∧ x.equal y = false ∧ DecidedByNan x y

theorem ItemsDecidedByNan.cons {x y : Value} {xs ys : List Value} (h : ItemsDecidedByNan xs ys)
    (hxy : x.equal y = true) : ItemsDecidedByNan (x :: xs) (y :: ys) := by
  obtain ⟨before, before', x', y', after, after', rfl, rfl, hbefore, hne, hdecided⟩ := h
  refine ⟨x :: before, y :: before', x', y', after, after', rfl, rfl, ?_, hne, hdecided⟩
  rw [equalItems, hxy, hbefore]
  rfl

/-- Lists are compared as their first items that differ are, or by their lengths if there are
none. -/
theorem verdict_items {xs ys : List Value}
    (hverdict : ∀ x ∈ xs, ∀ y ∈ ys, Verdict (DecidedByNan x y) (x.less? y) (y.less? x) (x.equal y))
    (hcomm : ∀ x ∈ xs, ∀ y ∈ ys, x.equal y = y.equal x) :
    Verdict (ItemsDecidedByNan xs ys) (lessItems? xs ys) (lessItems? ys xs) (equalItems xs ys) := by
  induction xs generalizing ys with
  | nil =>
    cases ys with
    | nil => exact .equal
    | cons => exact .less
  | cons x xs ih =>
    cases ys with
    | nil => exact .greater
    | cons y ys =>
      have hxy := hverdict x List.mem_cons_self y List.mem_cons_self
      rw [lessItems?, lessItems?, equalItems,
        ← hcomm x List.mem_cons_self y List.mem_cons_self]
      cases hequal : x.equal y with
      | true =>
        simp only [if_true, Bool.true_and]
        refine (ih (fun x' hx' y' hy' => ?_) fun x' hx' y' hy' => ?_).imp fun h => h.cons hequal
        · exact hverdict x' (List.mem_cons_of_mem _ hx') y' (List.mem_cons_of_mem _ hy')
        · exact hcomm x' (List.mem_cons_of_mem _ hx') y' (List.mem_cons_of_mem _ hy')
      | false =>
        simp only [Bool.false_eq_true, if_false, Bool.false_and]
        rw [hequal] at hxy
        exact hxy.imp fun h => ⟨[], [], x, y, xs, ys, rfl, rfl, rfl, hequal, h⟩

theorem ItemsDecidedByNan.list {xs ys : List Value} (h : ItemsDecidedByNan xs ys) :
    DecidedByNan (.list xs) (.list ys) := by
  obtain ⟨before, before', x, y, after, after', rfl, rfl, hbefore, hne, hdecided⟩ := h
  exact .list hbefore hne hdecided

theorem ItemsDecidedByNan.tuple {xs ys : List Value} (h : ItemsDecidedByNan xs ys) :
    DecidedByNan (.tuple xs) (.tuple ys) := by
  obtain ⟨before, before', x, y, after, after', rfl, rfl, hbefore, hne, hdecided⟩ := h
  exact .tuple hbefore hne hdecided

/-! ## Values -/

/-- **The order of values goes with their equality.**  For two values of which no dictionary has two
equal keys, either there is no order in both directions, or exactly one of less, greater and equal
holds, unless what is not a number decides. -/
theorem verdict_less? {v w : Value} (hv : v.HasDistinctKeys) (hw : w.HasDistinctKeys) :
    Verdict (DecidedByNan v w) (v.less? w) (w.less? v) (v.equal w) := by
  induction v using induction_contents generalizing w with
  | node v ih =>
    have hverdict : ∀ x ∈ v.contents, ∀ y ∈ w.contents,
        Verdict (DecidedByNan x y) (x.less? y) (y.less? x) (x.equal y) :=
      fun x hx y hy => ih x hx (hv.content hx) (hw.content hy)
    have hcomm : ∀ x ∈ v.contents, ∀ y ∈ w.contents, x.equal y = y.equal x :=
      fun x hx y hy => equal_comm (hv.content hx) (hw.content hy)
    cases v with
    | boolean | long | double =>
      cases w with
      | boolean | long | double => exact verdict_numbers rfl rfl
      | _ => exact .unordered
    | string s =>
      cases w with
      | string t =>
        rw [less?, less?, equal]
        exact verdict_lt s t
      | _ => exact .unordered
    | bytes a =>
      cases w with
      | bytes b =>
        rw [less?, less?, equal]
        exact verdict_lt a b
      | _ => exact .unordered
    | list xs =>
      cases w with
      | list ys =>
        rw [less?, less?, equal]
        exact (verdict_items hverdict hcomm).imp ItemsDecidedByNan.list
      | _ => exact .unordered
    | tuple xs =>
      cases w with
      | tuple ys =>
        rw [less?, less?, equal]
        exact (verdict_items hverdict hcomm).imp ItemsDecidedByNan.tuple
      | _ => exact .unordered
    | _ => cases w <;> exact .unordered

/-! ## What is not a number decides -/

/-- Items in front that are equal do not take part in a comparison. -/
theorem compareItems_behind {before before' : List Value} (xs ys : List Value)
    (h : equalItems before before' = true) :
    equalItems (before ++ xs) (before' ++ ys) = equalItems xs ys ∧
      lessItems? (before ++ xs) (before' ++ ys) = lessItems? xs ys := by
  rw [equalItems_iff] at h
  induction h with
  | nil => exact ⟨rfl, rfl⟩
  | cons hxy _ ih =>
    simp only [List.cons_append, equalItems, lessItems?, hxy, Bool.true_and, if_true]
    exact ih

/-- Where what is not a number decides, no value comes before the other one. -/
theorem less?_of_decidedByNan {v w : Value} (h : DecidedByNan v w) : v.less? w ≠ some true := by
  induction h with
  | left | right =>
    rw [less?]
    · simp only [numeric?, Double.extended?]
      split <;> simp
    all_goals simp
  | list hbefore hne _ ih | tuple hbefore hne _ ih =>
    rw [less?, (compareItems_behind _ _ hbefore).2, lessItems?, hne]
    exact ih

/-- Which are the first items that differ does not depend on the side. -/
theorem firstDifference_swap {before before' after after' : List Value} {x y : Value}
    (hitems : ∀ item ∈ before ++ x :: after, item.HasDistinctKeys)
    (hitems' : ∀ item ∈ before' ++ y :: after', item.HasDistinctKeys)
    (hbefore : equalItems before before' = true) (hne : x.equal y = false) :
    equalItems before' before = true ∧ y.equal x = false := by
  constructor
  · rw [equalItems_iff] at hbefore ⊢
    refine (forall₂_of_mem hbefore fun z hz z' hz' => ?_).flip
    exact equal_symm (hitems z (List.mem_append_left _ hz))
      (hitems' z' (List.mem_append_left _ hz'))
  · rw [← hne]
    exact equal_comm (hitems' y (by simp)) (hitems x (by simp))

theorem DecidedByNan.symm {v w : Value} (hv : v.HasDistinctKeys) (hw : w.HasDistinctKeys)
    (h : DecidedByNan v w) : DecidedByNan w v := by
  induction h with
  | left hnull => exact .right hnull
  | right hnull => exact .left hnull
  | list hbefore hne _ ih =>
    obtain ⟨hbefore', hne'⟩ := firstDifference_swap (fun _ => hv.content) (fun _ => hw.content)
      hbefore hne
    exact .list hbefore' hne' (ih (hv.content (List.mem_append_right _ List.mem_cons_self))
      (hw.content (List.mem_append_right _ List.mem_cons_self)))
  | tuple hbefore hne _ ih =>
    obtain ⟨hbefore', hne'⟩ := firstDifference_swap (fun _ => hv.content) (fun _ => hw.content)
      hbefore hne
    exact .tuple hbefore' hne' (ih (hv.content (List.mem_append_right _ List.mem_cons_self))
      (hw.content (List.mem_append_right _ List.mem_cons_self)))

end ExprLang.Value
