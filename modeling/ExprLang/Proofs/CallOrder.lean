import ExprLang.Proofs.Journal
import Mathlib.Data.List.Forall2
import Mathlib.Data.List.Nodup

/-!
# The order of the calls

An evaluation calls functions in the order of the source: a call comes after the calls in its
arguments, and those of a part after those of the parts to its left.

* `Expr.callPlaces` — the places of the calls of a tree, in post-order from left to right.
* `invocations`, `lookUps` — the places of the calls and of the look-ups of functions in a journal.
* `Unneeded` — the places that are left out by an operator, a branch or a null.
* `InSourceOrder` — what the order of the source means for a journal.
* `journal_inSourceOrder` — every evaluation keeps to it.
-/

namespace ExprLang

open Evaluation

/-! ## The calls of a tree -/

namespace Expr

def isCall : Expr → Bool
  | .call .. => true
  | _ => false

/-- The places of the calls of a tree, in post-order from left to right. -/
def callPlaces (e : Expr) : List (List Nat) :=
  beneath List.cons (e.parts.attach.map fun part => part.1.callPlaces) ++
    if e.isCall then [[]] else []
termination_by sizeOf e
decreasing_by exact sizeOf_part_lt part.2

theorem callPlaces_eq (e : Expr) : e.callPlaces =
    beneath List.cons (e.parts.map callPlaces) ++ if e.isCall then [[]] else [] := by
  rw [callPlaces, List.attach_map_val]

end Expr

section

variable {α β : Type} {inside : Nat → α → β} {lists lists' : List (List α)}

theorem sublist_beneath (h : List.Forall₂ List.Sublist lists lists') :
    (beneath inside lists).Sublist (beneath inside lists') := by
  induction h generalizing inside with
  | nil => exact List.Sublist.refl _
  | cons hlist _ ih =>
    rw [beneath_cons, beneath_cons]
    exact (hlist.map _).append ih

theorem nodup_beneath (hinside : Function.Injective2 inside) (h : ∀ list ∈ lists, list.Nodup) :
    (beneath inside lists).Nodup := by
  induction lists generalizing inside with
  | nil => exact List.nodup_nil
  | cons list lists ih =>
    rw [beneath_cons]
    have hfirst : (list.map (inside 0)).Nodup :=
      (h list List.mem_cons_self).map fun _ _ heq => (hinside heq).2
    have hrest : (beneath (fun i => inside (i + 1)) lists).Nodup := by
      refine ih (fun _ _ _ _ heq => ?_) fun list' hlist' => h list' (List.mem_cons_of_mem _ hlist')
      exact (hinside heq).imp_left Nat.succ_inj.1
    refine hfirst.append hrest fun b hb hb' => ?_
    obtain ⟨a, -, rfl⟩ := List.mem_map.1 hb
    obtain ⟨i, list', a', -, -, heq⟩ := mem_beneath.1 hb'
    cases (hinside heq).1

end

section

variable {host : Host} {e part : Expr} {i : Nat} {place : List Nat} {t t₁ t' : Trace}

theorem Expr.mem_callPlaces :
    place ∈ e.callPlaces ↔ ∃ node, e.at? place = some node ∧ node.isCall = true := by
  induction e using Expr.induction_parts generalizing place with
  | node e ih =>
    rw [callPlaces_eq, List.mem_append, mem_beneath]
    cases place with
    | nil => simp [at?]
    | cons i place =>
      simp only [at?_cons_eq_some, List.getElem?_map, Option.map_eq_some_iff]
      constructor
      · rintro (⟨_, _, place, ⟨part, hpart, rfl⟩, hplace, heq⟩ | h)
        · cases heq
          obtain ⟨node, hnode, hcall⟩ := (ih part (List.mem_of_getElem? hpart)).1 hplace
          exact ⟨node, ⟨part, hpart, hnode⟩, hcall⟩
        · split at h
          · simp at h
          · simp at h
      · rintro ⟨node, ⟨part, hpart, hnode⟩, hcall⟩
        have hplace := (ih part (List.mem_of_getElem? hpart)).2 ⟨node, hnode, hcall⟩
        exact .inl ⟨i, _, place, ⟨part, hpart, rfl⟩, hplace, rfl⟩

theorem Expr.nodup_callPlaces : e.callPlaces.Nodup := by
  induction e using Expr.induction_parts with
  | node e ih =>
    rw [callPlaces_eq]
    have hparts : (beneath List.cons (e.parts.map callPlaces)).Nodup := by
      refine nodup_beneath (fun _ _ _ _ heq => List.cons.inj heq) fun places hplaces => ?_
      obtain ⟨part, hpart, rfl⟩ := List.mem_map.1 hplaces
      exact ih part hpart
    have hself : (if e.isCall then [[]] else [] : List (List Nat)).Nodup := by
      split
      · exact List.nodup_singleton _
      · exact List.nodup_nil
    refine hparts.append hself fun place hplace hplace' => ?_
    obtain ⟨i, places, place, -, -, rfl⟩ := mem_beneath.1 hplace
    split at hplace'
    · simp at hplace'
    · simp at hplace'

/-- In `f(g(a), h() + 1)`, the calls of `g` and `h` come before that of `f`. -/
example : (Expr.call none ['f'] [.call none ['g'] [.identifier ['a']],
    .binary .add (.call none ['h'] []) (.literal (.long 1))]).callPlaces = [[0], [1, 0], []] := by
  cbv

/-! ## The calls and look-ups of a journal -/

namespace Event

def isCall : Event → Bool
  | .call .. => true
  | _ => false

def isFunctionLookup : Event → Bool
  | .functionLookup .. => true
  | _ => false

end Event

/-- The place of the entry, if it is of that kind. -/
def Entry.place? (kind : Event → Bool) (entry : Entry) : Option (List Nat) :=
  bif kind entry.event then some entry.place else none

/-- The places of the entries of a kind. -/
def placesOf (kind : Event → Bool) (log : List Entry) : List (List Nat) :=
  log.filterMap (Entry.place? kind)

/-- The places of the calls that are made, in the order of the journal. -/
abbrev invocations (log : List Entry) : List (List Nat) :=
  placesOf Event.isCall log

/-- The places of the calls whose functions are looked up, in the order of the journal. -/
abbrev lookUps (log : List Entry) : List (List Nat) :=
  placesOf Event.isFunctionLookup log

section

variable {kind : Event → Bool} {log log' : List Entry} {lists : List (List Entry)}

theorem Entry.place?_inside {entry : Entry} :
    (entry.inside i).place? kind = (entry.place? kind).map (List.cons i) := by
  show (bif kind entry.event then some (i :: entry.place) else none) =
    (bif kind entry.event then some entry.place else none).map (List.cons i)
  cases kind entry.event with
  | true => rfl
  | false => rfl

theorem mem_placesOf : place ∈ placesOf kind log ↔
    ∃ entry ∈ log, kind entry.event = true ∧ entry.place = place := by
  simp [placesOf, Entry.place?, cond_eq_ite]

theorem placesOf_append :
    placesOf kind (log ++ log') = placesOf kind log ++ placesOf kind log' :=
  List.filterMap_append

theorem placesOf_map_inside :
    placesOf kind (log.map (Entry.inside i)) = (placesOf kind log).map (List.cons i) := by
  rw [placesOf, placesOf, List.filterMap_map, List.map_filterMap]
  exact congrArg (fun f => log.filterMap f) (funext fun _ => Entry.place?_inside)

theorem placesOf_beneath :
    placesOf kind (beneath Entry.inside lists) = beneath List.cons (lists.map (placesOf kind)) :=
  filterMap_beneath fun _ _ => Entry.place?_inside

theorem placesOf_journal : placesOf kind (journal host e t) =
    placesOf kind (opening host e t) ++
      beneath List.cons ((segments host e t).map (placesOf kind)) ++
      placesOf kind (closing host e t) := by
  rw [journal_eq, placesOf_append, placesOf_append, placesOf_beneath]

/-- What is in the journal of a part is in that of the node. -/
theorem cons_mem_placesOf_beneath (hpart : e.parts[i]? = some part)
    (hreaches : Reaches host e t i t₁) (h : place ∈ placesOf kind (journal host part t₁)) :
    i :: place ∈ placesOf kind (beneath Entry.inside (segments host e t)) := by
  rw [placesOf_beneath]
  refine mem_beneath.2 ⟨i, placesOf kind (journal host part t₁), place, ?_, h, rfl⟩
  rw [List.getElem?_map, segments, List.getElem?_mapIdx, hpart, Option.map_some, Option.map_some,
    segment_of_reaches hreaches]

theorem placesOf_opening_sublist : (placesOf kind (opening host e t)).Sublist [[]] := by
  rcases opening_cases host e t with heq | ⟨event, heq, -⟩
  · rw [heq]
    exact List.nil_sublist _
  · rw [heq]
    cases hkind : kind event with
    | true => simp [placesOf, Entry.place?, hkind]
    | false => simp [placesOf, Entry.place?, hkind]

theorem placesOf_isCall_opening : placesOf Event.isCall (opening host e t) = [] := by
  cases e with
  | literal | identifier | unary | binary | conditional | member | index | call | foreign => rfl

theorem placesOf_isFunctionLookup_closing :
    placesOf Event.isFunctionLookup (closing host e t) = [] := by
  rcases closing_cases host e t with heq | ⟨_, _, _, _, _, _, _, _, _, _, heq⟩
  · rw [heq]
    rfl
  · rw [heq]
    rfl

end

/-! ## Each call at most once -/

/-- **Calls are made in the order of the source, and each at most once.** -/
theorem invocations_sublist : (invocations (journal host e t)).Sublist e.callPlaces := by
  induction e using Expr.induction_parts generalizing t with
  | node e ih =>
    rw [invocations, placesOf_journal, placesOf_isCall_opening, List.nil_append,
      Expr.callPlaces_eq]
    refine List.Sublist.append (sublist_beneath (List.forall₂_iff_get.2 ⟨?_, fun i _ _ => ?_⟩)) ?_
    · simp [length_segments]
    · simp only [segments, List.get_eq_getElem, List.getElem_map, List.getElem_mapIdx]
      rw [segment]
      split
      · exact ih _ (List.getElem_mem _)
      · exact List.nil_sublist _
    · rcases closing_cases host e t with heq | ⟨_, _, _, _, _, _, _, rfl, _, _, heq⟩
      · rw [heq]
        exact List.nil_sublist _
      · rw [heq]
        exact List.Sublist.refl _

/-- A function is looked up at most once for every call. -/
theorem nodup_lookUps : (lookUps (journal host e t)).Nodup := by
  induction e using Expr.induction_parts generalizing t with
  | node e ih =>
    rw [lookUps, placesOf_journal, placesOf_isFunctionLookup_closing, List.append_nil]
    have hself : (placesOf Event.isFunctionLookup (opening host e t)).Nodup :=
      (List.nodup_singleton []).sublist placesOf_opening_sublist
    have hparts : (beneath List.cons ((segments host e t).map lookUps)).Nodup := by
      refine nodup_beneath (fun _ _ _ _ heq => List.cons.inj heq) fun places hplaces => ?_
      obtain ⟨log, hlog, rfl⟩ := List.mem_map.1 hplaces
      obtain ⟨i, _, rfl⟩ := List.mem_mapIdx.1 hlog
      rw [segment]
      split
      · exact ih _ (List.getElem_mem _)
      · exact List.nodup_nil
    refine hself.append hparts fun place hplace hplace' => ?_
    obtain ⟨i, places, place, -, -, rfl⟩ := mem_beneath.1 hplace'
    cases List.mem_singleton.1 (placesOf_opening_sublist.subset hplace)

/-! ## What a call waits for -/

/-- The place lies in a part that is not needed: the right operand of `&&` or `||` where the left
one decides, the branch that is not selected, or a key behind a null.  The arguments of a call are
always needed. -/
def Unneeded (host : Host) (e : Expr) (t : Trace) (place : List Nat) : Prop :=
  ∃ outer i inner node t₁, place = outer ++ i :: inner ∧ e.at? outer = some node ∧
    Comes host e t outer t₁ ∧ node.isCall = false ∧ Skips host node t₁ i

theorem Unneeded.here (hcall : e.isCall = false) (h : Skips host e t i) :
    Unneeded host e t (i :: place) :=
  ⟨[], i, place, e, t, rfl, rfl, .here, hcall, h⟩

theorem Unneeded.inside (hpart : e.parts[i]? = some part) (hreaches : Reaches host e t i t₁)
    (h : Unneeded host part t₁ place) : Unneeded host e t (i :: place) := by
  obtain ⟨outer, j, inner, node, t₂, rfl, hnode, hcomes, hcall, hskips⟩ := h
  exact ⟨i :: outer, j, inner, node, t₂, rfl, Expr.at?_cons_eq_some.2 ⟨part, hpart, hnode⟩,
    .inside hreaches hpart hcomes, hcall, hskips⟩

/-- If a list is done, so is every item of it, behind those in front of it. -/
theorem returns_item {α β : Type} {f : α → Evaluation β} {items : List α} {item : α}
    {values : List β} (h : (items.mapM f).Returns t values t') (hitem : items[i]? = some item) :
    ∃ before t₁ value t₂, ((items.take i).mapM f).Returns t before t₁ ∧
      (f item).Returns t₁ value t₂ := by
  obtain ⟨hi, rfl⟩ := List.getElem?_eq_some_iff.1 hitem
  rw [← List.take_append_drop i items, List.drop_eq_getElem_cons hi, List.mapM_append,
    List.mapM_cons] at h
  obtain ⟨before, t₁, hbefore, hrest⟩ := returns_bind.1 h
  obtain ⟨behind, t₃, hbehind, -⟩ := returns_bind.1 hrest
  obtain ⟨value, t₂, hvalue, -⟩ := returns_bind.1 hbehind
  exact ⟨before, t₁, value, t₂, hbefore, hvalue⟩

/-- If all arguments return, the evaluation has come to each, and it returned. -/
theorem reaches_argument {qualifier : Option Text} {name : Text} {arguments : List Expr}
    {argument : Expr} {function : HostFunction} {values : List Value}
    (hfunction : (host.askFunction qualifier name).Returns t function t₁)
    (hvalues : (arguments.mapM (evaluate host)).Returns t₁ values t')
    (hargument : arguments[i]? = some argument) :
    ∃ t₂ value t₃, Reaches host (.call qualifier name arguments) t i t₂ ∧
      (evaluate host argument).Returns t₂ value t₃ := by
  obtain ⟨before, t₂, value, t₃, hbefore, hvalue⟩ := returns_item hvalues hargument
  exact ⟨t₂, value, t₃, .argument hfunction hbefore, hvalue⟩

/-- An operator that does not need its right operand is `&&` or `||`. -/
theorem skips_of_needsRight {operator : BinaryOperator} {left right : Expr} {value : Value}
    (hvalue : (evaluate host left).Returns t value t')
    (hneeds : operator.needsRight value = .ok false) :
    Skips host (.binary operator left right) t 1 := by
  cases operator with
  | and => exact .and hvalue hneeds
  | or =>
    refine .or hvalue ?_
    rw [BinaryOperator.needsRight] at hneeds
    rcases htruth : value.toBoolean with error | _ | _
    · rw [htruth] at hneeds
      cases hneeds
    · rw [htruth] at hneeds
      cases hneeds
    · rfl
  | _ => cases hneeds

/-- A node that returns has come to each of its parts, which returned, but for those that are not
needed. -/
theorem reaches_of_returns {value : Value} (h : (evaluate host e).Returns t value t')
    (hpart : e.parts[i]? = some part) : (e.isCall = false ∧ Skips host e t i) ∨
      ∃ t₁ value t₂, Reaches host e t i t₁ ∧ (evaluate host part).Returns t₁ value t₂ := by
  cases e with
  | literal | identifier | foreign => cases hpart
  | unary operator operand =>
    rw [evaluate_unary] at h
    obtain ⟨value, t₁, hvalue, -⟩ := returns_bind.1 h
    match i, hpart with
    | 0, rfl => exact .inr ⟨t, value, t₁, .operand, hvalue⟩
  | member object name =>
    rw [evaluate_member] at h
    obtain ⟨value, t₁, hvalue, -⟩ := returns_bind.1 h
    match i, hpart with
    | 0, rfl => exact .inr ⟨t, value, t₁, .memberObject, hvalue⟩
  | binary operator left right =>
    rw [evaluate_binary] at h
    obtain ⟨value, t₁, hvalue, h⟩ := returns_bind.1 h
    match i, hpart with
    | 0, rfl => exact .inr ⟨t, value, t₁, .left, hvalue⟩
    | 1, rfl =>
      rw [applyBinary_eq] at h
      obtain ⟨needed, t₂, hneeded, h⟩ := returns_bind.1 h
      obtain ⟨hneeds, rfl⟩ := returns_ofCoercion.1 hneeded
      cases needed with
      | true =>
        obtain ⟨w, t₂, hw, -⟩ := returns_bind.1 h
        exact .inr ⟨t₁, w, t₂, .right hvalue hneeds, hw⟩
      | false => exact .inl ⟨rfl, skips_of_needsRight hvalue hneeds⟩
  | conditional condition thenBranch elseBranch =>
    rw [evaluate_conditional] at h
    obtain ⟨value, t₁, hvalue, h⟩ := returns_bind.1 h
    obtain ⟨truth, t₂, hcoerced, h⟩ := returns_bind.1 h
    obtain ⟨htruth, rfl⟩ := returns_ofCoercion.1 hcoerced
    match i, hpart, truth with
    | 0, rfl, _ => exact .inr ⟨t, value, t₁, .condition, hvalue⟩
    | 1, rfl, true => exact .inr ⟨t₁, _, t', .thenBranch hvalue htruth, h⟩
    | 1, rfl, false => exact .inl ⟨rfl, .thenBranch hvalue htruth⟩
    | 2, rfl, false => exact .inr ⟨t₁, _, t', .elseBranch hvalue htruth, h⟩
    | 2, rfl, true => exact .inl ⟨rfl, .elseBranch hvalue htruth⟩
  | index object key =>
    rw [evaluate_index] at h
    obtain ⟨value, t₁, hvalue, h⟩ := returns_bind.1 h
    match i, hpart with
    | 0, rfl => exact .inr ⟨t, value, t₁, .indexObject, hvalue⟩
    | 1, rfl =>
      rw [lookUp] at h
      cases hnull : value.isNull with
      | true =>
        cases value with
        | null => exact .inl ⟨rfl, .key [] hvalue⟩
        | _ => cases hnull
      | false =>
        rw [hnull] at h
        obtain ⟨w, t₂, hw, -⟩ := returns_bind.1 h
        exact .inr ⟨t₁, w, t₂, .key hvalue hnull, hw⟩
  | call qualifier name arguments =>
    rw [evaluate_call] at h
    obtain ⟨function, t₁, hfunction, h⟩ := returns_bind.1 h
    obtain ⟨values, t₂, hvalues, -⟩ := returns_bind.1 h
    exact .inr (reaches_argument hfunction hvalues hpart)

/-- A tree that returns has made all its calls that are needed. -/
theorem mem_invocations_of_returns {value : Value} (h : (evaluate host e).Returns t value t')
    (hplace : place ∈ e.callPlaces) (hneeded : ¬ Unneeded host e t place) :
    place ∈ invocations (journal host e t) := by
  obtain ⟨node, hnode, hcall⟩ := Expr.mem_callPlaces.1 hplace
  clear hplace
  induction place generalizing e t value t' with
  | nil =>
    cases hnode
    cases node with
    | call qualifier name arguments =>
      rw [evaluate_call] at h
      obtain ⟨function, t₁, hfunction, h⟩ := returns_bind.1 h
      obtain ⟨values, t₂, hvalues, -⟩ := returns_bind.1 h
      rw [invocations, placesOf_journal, closing_of_returns hfunction hvalues]
      exact List.mem_append_right _ (List.mem_singleton_self [])
    | _ => cases hcall
  | cons i place ih =>
    obtain ⟨part, hpart, hnode⟩ := Expr.at?_cons_eq_some.1 hnode
    rcases reaches_of_returns h hpart with ⟨hnot, hskips⟩ | ⟨t₁, w, t₂, hreaches, hw⟩
    · exact absurd (.here hnot hskips) hneeded
    · have hmem := ih hw (fun h => hneeded (h.inside hpart hreaches)) hnode
      rw [invocations, journal_eq, placesOf_append, placesOf_append]
      exact List.mem_append_left _ (List.mem_append_right _
        (cons_mem_placesOf_beneath hpart hreaches hmem))

/-- In front of a call are all the calls in its arguments that are needed. -/
theorem mem_invocations_of_inside {before : List Entry} {entry : Entry} {inner : List Nat}
    (h : before ++ [entry] <+: journal host e t) (hcall : entry.event.isCall = true)
    (hplace : entry.place ++ i :: inner ∈ e.callPlaces)
    (hneeded : ¬ Unneeded host e t (entry.place ++ i :: inner)) :
    entry.place ++ i :: inner ∈ invocations before := by
  induction e using Expr.induction_parts generalizing t before entry with
  | node e ih =>
    rcases concat_prefix_journal h with ⟨rfl, hopening⟩ |
      ⟨j, part, t₁, before', entry', hpart, hreaches, hprefix, rfl, rfl⟩ | ⟨rfl, hclosing⟩
    · -- What a node opens with is no call.
      have hmem : entry.place ∈ placesOf Event.isCall (opening host e t) :=
        mem_placesOf.2 ⟨entry, hopening, hcall, rfl⟩
      rw [placesOf_isCall_opening] at hmem
      cases hmem
    · obtain ⟨node, hnode, hnodeCall⟩ := Expr.mem_callPlaces.1 hplace
      obtain ⟨part', hpart', hnode⟩ := Expr.at?_cons_eq_some.1 hnode
      cases hpart.symm.trans hpart'
      have hmem := ih part (List.mem_of_getElem? hpart) hprefix hcall
        (Expr.mem_callPlaces.2 ⟨node, hnode, hnodeCall⟩)
        fun h => hneeded (h.inside hpart hreaches)
      rw [invocations, placesOf_append, placesOf_map_inside]
      exact List.mem_append_right _ (List.mem_map_of_mem hmem)
    · obtain ⟨qualifier, name, arguments, function, values, t₁, t₂, rfl, hfunction, hvalues, rfl⟩ :=
        call_of_mem_closing hclosing
      -- The node itself is the call, so that all its arguments have returned.
      obtain ⟨node, hnode, hnodeCall⟩ := Expr.mem_callPlaces.1 hplace
      obtain ⟨argument, hargument, hnode⟩ := Expr.at?_cons_eq_some.1 hnode
      obtain ⟨t₃, w, t₄, hreaches, hw⟩ := reaches_argument hfunction hvalues hargument
      have hmem := mem_invocations_of_returns hw
        (Expr.mem_callPlaces.2 ⟨node, hnode, hnodeCall⟩)
        fun h => hneeded (h.inside hargument hreaches)
      rw [invocations, placesOf_append]
      exact List.mem_append_right _ (cons_mem_placesOf_beneath hargument hreaches hmem)

/-- In front of all that the arguments of a call ask for is the look-up of its function. -/
theorem mem_lookUps_of_inside {before : List Entry} {entry : Entry} {inner : List Nat}
    (h : before ++ [entry] <+: journal host e t) (hplace : place ∈ e.callPlaces)
    (hentry : entry.place = place ++ i :: inner) : place ∈ lookUps before := by
  induction e using Expr.induction_parts generalizing t before entry place with
  | node e ih =>
    rcases concat_prefix_journal h with ⟨rfl, hopening⟩ |
      ⟨j, part, t₁, before', entry', hpart, hreaches, hprefix, rfl, rfl⟩ | ⟨rfl, hclosing⟩
    · rw [(makes_of_mem_opening hopening).1] at hentry
      simp at hentry
    · obtain ⟨node, hnode, hcall⟩ := Expr.mem_callPlaces.1 hplace
      cases place with
      | nil =>
        cases hnode
        cases e with
        | call qualifier name arguments => exact List.mem_cons_self
        | _ => cases hcall
      | cons k place =>
        obtain ⟨rfl, hbelow⟩ := List.cons.inj hentry
        obtain ⟨part', hpart', hnode⟩ := Expr.at?_cons_eq_some.1 hnode
        cases hpart.symm.trans hpart'
        have hmem := ih part (List.mem_of_getElem? hpart) hprefix
          (Expr.mem_callPlaces.2 ⟨node, hnode, hcall⟩) hbelow
        rw [lookUps, placesOf_append, placesOf_map_inside]
        exact List.mem_append_right _ (List.mem_map_of_mem hmem)
    · obtain ⟨_, _, _, _, _, _, _, _, _, _, rfl⟩ := call_of_mem_closing hclosing
      simp at hentry

/-! ## After a failure -/

theorem Reaches.enters (h : Reaches host e t i t₁) (hpart : e.parts[i]? = some part) :
    Enters host e t part t₁ := by
  cases h with
  | operand | left | condition | memberObject | indexObject =>
    cases hpart
    constructor
  | right hvalue hneeds =>
    cases hpart
    exact .right hvalue hneeds
  | thenBranch hvalue htruth =>
    cases hpart
    exact .thenBranch hvalue htruth
  | elseBranch hvalue htruth =>
    cases hpart
    exact .elseBranch hvalue htruth
  | key hvalue hnull =>
    cases hpart
    exact .key hvalue hnull
  | @argument qualifier name arguments _ _ _ _ _ _ hfunction hbefore =>
    rw [Expr.parts] at hpart
    obtain ⟨hi, rfl⟩ := List.getElem?_eq_some_iff.1 hpart
    have hsplit : arguments.take i ++ arguments[i] :: arguments.drop (i + 1) = arguments := by
      rw [← List.drop_eq_getElem_cons hi, List.take_append_drop]
    have henters : Enters host
        (.call qualifier name (arguments.take i ++ arguments[i] :: arguments.drop (i + 1))) t
        arguments[i] t₁ := .argument hfunction hbefore
    rwa [hsplit] at henters

/-- What a node fails with that an evaluation comes to is what the evaluation fails with, and
nothing is asked of the host any more. -/
theorem fails_of_comes {node : Expr} {failure : Failure} (hcomes : Comes host e t place t₁)
    (hnode : e.at? place = some node) (hfails : (evaluate host node).Fails t₁ failure t') :
    (evaluate host e).Fails t failure t' := by
  induction hcomes with
  | here =>
    cases hnode
    exact hfails
  | inside hreaches hpart _ ih =>
    obtain ⟨part', hpart', hnode⟩ := Expr.at?_cons_eq_some.1 hnode
    cases hpart.symm.trans hpart'
    exact fails_iff_raises_or_part.2 (.inr ⟨_, _, hreaches.enters hpart, ih hnode hfails⟩)

/-! ## The order of the source -/

/-- What the order of the source means for the journal of an evaluation. -/
structure InSourceOrder (host : Host) (e : Expr) (t : Trace) (log : List Entry) : Prop where
  /-- The journal is what the evaluation adds to the trace, be it that it returns or fails. -/
  trace_eq : ((evaluate host e).run t).2 = t ++ log.map Entry.event
  /-- Every entry is what the node at its place asks for, which the evaluation has come to, with the
  trace as it is there.  So a function is called with the values of the arguments of its node, in
  their order. -/
  makes : ∀ before entry, before ++ [entry] <+: log →
    ∃ node t₁, e.at? entry.place = some node ∧ Comes host e t entry.place t₁ ∧
      Makes host node t₁ (t ++ before.map Entry.event) entry.event
  /-- Calls are made in the order in which they stand in the tree. -/
  invocations_sublist : (invocations log).Sublist e.callPlaces
  /-- A call is made at most once. -/
  invocations_nodup : (invocations log).Nodup
  /-- In front of a call are the calls in its arguments, but for those that are not needed. -/
  arguments_before : ∀ before entry i inner, before ++ [entry] <+: log →
    entry.event.isCall = true → entry.place ++ i :: inner ∈ e.callPlaces →
    ¬ Unneeded host e t (entry.place ++ i :: inner) →
    entry.place ++ i :: inner ∈ invocations before
  /-- The trace ends where a node fails that the evaluation has come to. -/
  ends_at_failure : ∀ place node t₁ failure t', e.at? place = some node →
    Comes host e t place t₁ → (evaluate host node).Fails t₁ failure t' →
    (evaluate host e).Fails t failure t'
  /-- A function is looked up at most once for every call. -/
  lookUps_nodup : (lookUps log).Nodup
  /-- In front of all that the arguments of a call ask for is the look-up of its function. -/
  lookUp_first : ∀ before entry place i inner, before ++ [entry] <+: log → place ∈ e.callPlaces →
    entry.place = place ++ i :: inner → place ∈ lookUps before

/-- **Functions are called in the order of the source, and each call is made at most once.**  This
holds of every evaluation of every tree, with every host and every past. -/
theorem journal_inSourceOrder (host : Host) (e : Expr) (t : Trace) :
    InSourceOrder host e t (journal host e t) where
  trace_eq := logged host e t
  makes _ _ h := makes_of_journal h
  invocations_sublist := invocations_sublist
  invocations_nodup := Expr.nodup_callPlaces.sublist invocations_sublist
  arguments_before _ _ _ _ := mem_invocations_of_inside
  ends_at_failure _ _ _ _ _ hnode hcomes := fails_of_comes hcomes hnode
  lookUps_nodup := nodup_lookUps
  lookUp_first _ _ _ _ _ := mem_lookUps_of_inside

end

end ExprLang
