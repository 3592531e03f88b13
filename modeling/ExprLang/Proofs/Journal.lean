import ExprLang.Proofs.SkippedParts

/-!
# The journal of an evaluation

A trace tells what the host was asked for and in which order, but not by which node of the tree.
The journal of an evaluation is what it adds to the trace, with the place of the node next to each
event.

* `beneath` — lists of the parts of a node, joined.
* `Expr.at?` — the node at a place.
* `approach` — what an evaluation does before it comes to a part, and whether it comes to it.
* `journal` — what a node asks for first, the journals of its parts, and what it asks for last.
* `logged` — the journal is what an evaluation adds to the trace.
* `makes_of_journal` — every event of a journal is that of the node at its place, which the
  evaluation has come to, and at the time of that trace.
-/

namespace ExprLang

open Evaluation

/-! ## Lists of the parts -/

/-- The lists of the parts in one list, where each item is put inside the part of its number. -/
def beneath {α β : Type} (inside : Nat → α → β) (lists : List (List α)) : List β :=
  (lists.mapIdx fun i list => list.map (inside i)).flatten

section

variable {α β γ δ : Type} {inside : Nat → α → β} {list : List α} {lists : List (List α)}

theorem beneath_nil : beneath inside [] = [] :=
  rfl

theorem beneath_cons : beneath inside (list :: lists) =
    list.map (inside 0) ++ beneath (fun i => inside (i + 1)) lists := by
  simp only [beneath, List.mapIdx_cons, List.flatten_cons]

theorem mem_beneath {b : β} : b ∈ beneath inside lists ↔
    ∃ i list a, lists[i]? = some list ∧ a ∈ list ∧ inside i a = b := by
  simp only [beneath, List.mem_flatten, List.mem_iff_getElem? (l := List.mapIdx _ _),
    List.getElem?_mapIdx, Option.map_eq_some_iff]
  constructor
  · rintro ⟨_, ⟨i, list, hlist, rfl⟩, hb⟩
    obtain ⟨a, ha, rfl⟩ := List.mem_map.1 hb
    exact ⟨i, list, a, hlist, ha, rfl⟩
  · rintro ⟨i, list, a, hlist, ha, rfl⟩
    exact ⟨_, ⟨i, list, hlist, rfl⟩, List.mem_map_of_mem ha⟩

/-- What an item is mapped to does not depend on where it is put. -/
theorem map_beneath {f : β → γ} {g : α → γ} (h : ∀ i a, f (inside i a) = g a) :
    (beneath inside lists).map f = lists.flatten.map g := by
  induction lists generalizing inside with
  | nil => rfl
  | cons list lists ih =>
    rw [beneath_cons, List.map_append, List.map_map, List.flatten_cons, List.map_append,
      ih fun i => h (i + 1)]
    exact congrArg (fun f => list.map f ++ _) (funext (h 0))

/-- What is picked out of an item is put where the item is. -/
theorem filterMap_beneath {f : β → Option δ} {g : α → Option γ} {inside' : Nat → γ → δ}
    (h : ∀ i a, f (inside i a) = (g a).map (inside' i)) :
    (beneath inside lists).filterMap f = beneath inside' (lists.map (·.filterMap g)) := by
  induction lists generalizing inside inside' with
  | nil => rfl
  | cons list lists ih =>
    rw [beneath_cons, List.filterMap_append, List.map_cons, beneath_cons, ih fun i => h (i + 1),
      List.filterMap_map, List.map_filterMap]
    exact congrArg (fun f => list.filterMap f ++ _) (funext (h 0))

theorem concat_prefix_append {before list list' : List α} {a : α}
    (h : before ++ [a] <+: list ++ list') :
    before ++ [a] <+: list ∨ ∃ before', before = list ++ before' ∧ before' ++ [a] <+: list' := by
  obtain ⟨after, h⟩ := h
  -- The first list ends behind the item, right in front of it, or further ahead.
  rcases List.append_eq_append_iff.1 h with ⟨between, rfl, -⟩ | ⟨between, hlist, rfl⟩
  · exact .inl ⟨between, rfl⟩
  · rcases List.eq_nil_or_concat between with rfl | ⟨before', _, rfl⟩
    · exact .inl ⟨[], by simpa using hlist⟩
    · rw [List.concat_eq_append, ← List.append_assoc] at hlist
      obtain ⟨rfl, heq⟩ := List.append_inj' hlist rfl
      cases heq
      exact .inr ⟨before', rfl, after, by simp⟩

/-- In front of an item of the joined list are the lists of the earlier parts, and what is in front
of it in its own list. -/
theorem concat_prefix_beneath {before : List β} {b : β}
    (h : before ++ [b] <+: beneath inside lists) :
    ∃ i list before' a, lists[i]? = some list ∧ before' ++ [a] <+: list ∧ b = inside i a ∧
      before = beneath inside (lists.take i) ++ before'.map (inside i) := by
  induction lists generalizing inside before with
  | nil => simp [beneath_nil] at h
  | cons list lists ih =>
    rw [beneath_cons] at h
    rcases concat_prefix_append h with hfirst | ⟨before, rfl, hrest⟩
    · obtain ⟨initial, hinitial, heq⟩ := List.prefix_map_iff.1 hfirst
      obtain ⟨before', last, rfl, rfl, hlast⟩ := List.map_eq_append_iff.1 heq.symm
      obtain ⟨a, rfl, rfl⟩ := List.map_eq_singleton_iff.1 hlast
      exact ⟨0, list, before', a, rfl, hinitial, rfl, rfl⟩
    · obtain ⟨i, list', before', a, hlist', hbefore', rfl, rfl⟩ := ih hrest
      refine ⟨i + 1, list', before', a, hlist', hbefore', rfl, ?_⟩
      rw [List.take_succ_cons, beneath_cons, List.append_assoc]

end

/-! ## The node at a place -/

/-- The node at a place. -/
def Expr.at? (e : Expr) : List Nat → Option Expr
  | [] => some e
  | i :: place => e.parts[i]?.bind (·.at? place)

theorem Expr.at?_cons_eq_some {e node : Expr} {i : Nat} {place : List Nat} :
    e.at? (i :: place) = some node ↔ ∃ part, e.parts[i]? = some part ∧ part.at? place = some node :=
  Option.bind_eq_some_iff

/-! ## When an evaluation comes to a part -/

/-- What the evaluation of a node does before it comes to its part of that number, and whether it
comes to it. -/
def approach (host : Host) : Expr → Nat → Evaluation Bool
  | .unary _ _, 0 | .binary _ _ _, 0 | .conditional _ _ _, 0 | .member _ _, 0 | .index _ _, 0 =>
    return true
  | .binary operator left _, 1 => do ofCoercion (operator.needsRight (← evaluate host left))
  | .conditional condition _ _, 1 => do ofCoercion (← evaluate host condition).toBoolean
  | .conditional condition _ _, 2 => do
    return !(← ofCoercion (← evaluate host condition).toBoolean)
  | .index object _, 1 => do return !(← evaluate host object).isNull
  | .call qualifier name arguments, i => do
    let _ ← host.askFunction qualifier name
    let _ ← (arguments.take i).mapM (evaluate host)
    return true
  | _, _ => return false

/-- The trace with which the evaluation of a node comes to its part of that number. -/
def arrival? (host : Host) (e : Expr) (t : Trace) (i : Nat) : Option Trace :=
  match (approach host e i).run t with
  | (.ok true, t') => some t'
  | _ => none

section

variable {host : Host} {e : Expr} {i : Nat} {t t' : Trace}

theorem returns_approach : (approach host e i).Returns t true t' ↔ Reaches host e t i t' := by
  constructor
  · intro h
    match e, i with
    | .unary _ _, 0 | .binary _ _ _, 0 | .conditional _ _ _, 0 | .member _ _, 0 | .index _ _, 0 =>
      obtain ⟨-, rfl⟩ := returns_pure.1 h
      constructor
    | .binary operator left _, 1 =>
      obtain ⟨value, t₁, hvalue, h⟩ := returns_bind.1 h
      obtain ⟨hneeds, rfl⟩ := returns_ofCoercion.1 h
      exact .right hvalue hneeds
    | .conditional condition _ _, 1 =>
      obtain ⟨value, t₁, hvalue, h⟩ := returns_bind.1 h
      obtain ⟨htruth, rfl⟩ := returns_ofCoercion.1 h
      exact .thenBranch hvalue htruth
    | .conditional condition _ _, 2 =>
      obtain ⟨value, t₁, hvalue, h⟩ := returns_bind.1 h
      obtain ⟨truth, t₂, hcoerced, h⟩ := returns_bind.1 h
      obtain ⟨htruth, rfl⟩ := returns_ofCoercion.1 hcoerced
      obtain ⟨hnot, rfl⟩ := returns_pure.1 h
      cases truth with
      | false => exact .elseBranch hvalue htruth
      | true => cases hnot
    | .index object _, 1 =>
      obtain ⟨value, t₁, hvalue, h⟩ := returns_bind.1 h
      obtain ⟨hnot, rfl⟩ := returns_pure.1 h
      exact .key hvalue (Bool.not_eq_eq_eq_not.1 hnot)
    | .call qualifier name arguments, i =>
      obtain ⟨function, t₁, hfunction, h⟩ := returns_bind.1 h
      obtain ⟨values, t₂, hvalues, h⟩ := returns_bind.1 h
      obtain ⟨-, rfl⟩ := returns_pure.1 h
      exact .argument hfunction hvalues
    | .unary _ _, _ + 1 | .binary _ _ _, _ + 2 | .conditional _ _ _, _ + 3 | .member _ _, _ + 1
    | .index _ _, _ + 2 | .literal _, _ | .identifier _, _ | .foreign _, _ =>
      cases (returns_pure.1 h).1
  · intro h
    cases h with
    | operand | left | condition | memberObject | indexObject => exact returns_pure.2 ⟨rfl, rfl⟩
    | right hvalue hneeds =>
      exact returns_bind.2 ⟨_, _, hvalue, returns_ofCoercion.2 ⟨hneeds, rfl⟩⟩
    | thenBranch hvalue htruth =>
      exact returns_bind.2 ⟨_, _, hvalue, returns_ofCoercion.2 ⟨htruth, rfl⟩⟩
    | elseBranch hvalue htruth =>
      exact returns_bind.2 ⟨_, _, hvalue, returns_bind.2
        ⟨_, _, returns_ofCoercion.2 ⟨htruth, rfl⟩, returns_pure.2 ⟨rfl, rfl⟩⟩⟩
    | key hvalue hnull =>
      exact returns_bind.2 ⟨_, _, hvalue, returns_pure.2 ⟨by rw [hnull]; rfl, rfl⟩⟩
    | argument hfunction hvalues =>
      exact returns_bind.2 ⟨_, _, hfunction, returns_bind.2
        ⟨_, _, hvalues, returns_pure.2 ⟨rfl, rfl⟩⟩⟩

theorem arrival?_eq_some : arrival? host e t i = some t' ↔ Reaches host e t i t' := by
  rw [← returns_approach, arrival?, Returns]
  rcases (approach host e i).run t with ⟨_ | _ | _, t₁⟩
  · exact ⟨fun h => (by cases h), fun h => (by cases h)⟩
  · exact ⟨fun h => (by cases h), fun h => (by cases h)⟩
  · exact ⟨fun h => by cases h; rfl, fun h => by cases h; rfl⟩

end

/-! ## The journal -/

/-- An event and the place of the node that it comes from. -/
structure Entry where
  place : List Nat
  event : Event

/-- The entry, seen from the node of which the part of that number is the one that it belongs to. -/
def Entry.inside (i : Nat) (entry : Entry) : Entry :=
  ⟨i :: entry.place, entry.event⟩

/-- What a node asks the host for before it comes to its parts. -/
def opening (host : Host) : Expr → Trace → List Entry
  | .identifier name, t => [⟨[], .variableLookup name (host.resolveVariable t name)⟩]
  | .call qualifier name _, t =>
    [⟨[], .functionLookup qualifier name
      ((host.resolveFunction t qualifier name).map (·.isSome))⟩]
  | _, _ => []

/-- What a node asks the host for after its parts. -/
def closing (host : Host) : Expr → Trace → List Entry
  | .call qualifier name arguments, t =>
    match (host.askFunction qualifier name).run t with
    | (.ok function, t₁) =>
      match (arguments.mapM (evaluate host)).run t₁ with
      | (.ok values, t₂) => [⟨[], .call qualifier name values (function t₂ values)⟩]
      | (.error _, _) => []
    | (.error _, _) => []
  | _, _ => []

/-- What an evaluation adds to the trace, with places.  A part that it does not come to adds
nothing. -/
def journal (host : Host) (e : Expr) (t : Trace) : List Entry :=
  opening host e t ++
    beneath Entry.inside (e.parts.attach.mapIdx fun i part =>
      match arrival? host e t i with
      | some t' => journal host part.1 t'
      | none => []) ++
    closing host e t
termination_by sizeOf e
decreasing_by exact Expr.sizeOf_part_lt part.2

/-- The journal of a part. -/
def segment (host : Host) (e : Expr) (t : Trace) (i : Nat) (part : Expr) : List Entry :=
  match arrival? host e t i with
  | some t' => journal host part t'
  | none => []

def segments (host : Host) (e : Expr) (t : Trace) : List (List Entry) :=
  e.parts.mapIdx (segment host e t)

section

variable {host : Host} {e part : Expr} {i : Nat} {t t' : Trace}

theorem journal_eq : journal host e t =
    opening host e t ++ beneath Entry.inside (segments host e t) ++ closing host e t := by
  have hsegments : segments host e t =
      e.parts.attach.mapIdx fun i part => segment host e t i part.1 := by
    refine List.ext_getElem ?_ fun i _ _ => ?_
    · simp [segments]
    · simp [segments]
  rw [journal, hsegments]
  rfl

theorem segment_of_reaches (h : Reaches host e t i t') :
    segment host e t i part = journal host part t' := by
  rw [segment, arrival?_eq_some.2 h]

theorem segment_of_not_reaches (h : ∀ t', ¬ Reaches host e t i t') :
    segment host e t i part = [] := by
  have hnone : arrival? host e t i = none :=
    Option.eq_none_iff_forall_ne_some.2 fun t' h' => h t' (arrival?_eq_some.1 h')
  rw [segment, hnone]

theorem length_segments : (segments host e t).length = e.parts.length :=
  List.length_mapIdx

theorem segments_unary {operator : UnaryOperator} {operand : Expr} :
    segments host (.unary operator operand) t = [journal host operand t] := by
  simp only [segments, Expr.parts, List.mapIdx_cons, List.mapIdx_nil, segment_of_reaches .operand]

theorem segments_binary {operator : BinaryOperator} {left right : Expr} :
    segments host (.binary operator left right) t =
      [journal host left t, segment host (.binary operator left right) t 1 right] := by
  simp only [segments, Expr.parts, List.mapIdx_cons, List.mapIdx_nil, segment_of_reaches .left,
    Nat.zero_add]

theorem segments_conditional {condition thenBranch elseBranch : Expr} :
    segments host (.conditional condition thenBranch elseBranch) t =
      [journal host condition t,
        segment host (.conditional condition thenBranch elseBranch) t 1 thenBranch,
        segment host (.conditional condition thenBranch elseBranch) t 2 elseBranch] := by
  simp only [segments, Expr.parts, List.mapIdx_cons, List.mapIdx_nil, segment_of_reaches .condition,
    Nat.zero_add, Nat.reduceAdd]

theorem segments_member {object : Expr} {name : Text} :
    segments host (.member object name) t = [journal host object t] := by
  simp only [segments, Expr.parts, List.mapIdx_cons, List.mapIdx_nil,
    segment_of_reaches .memberObject]

theorem segments_index {object key : Expr} :
    segments host (.index object key) t =
      [journal host object t, segment host (.index object key) t 1 key] := by
  simp only [segments, Expr.parts, List.mapIdx_cons, List.mapIdx_nil,
    segment_of_reaches .indexObject, Nat.zero_add]

theorem flatten_segments_of_not_reaches (h : ∀ i t', ¬ Reaches host e t i t') :
    (segments host e t).flatten = [] := by
  refine List.flatten_eq_nil_iff.2 fun log hlog => ?_
  obtain ⟨i, _, rfl⟩ := List.mem_mapIdx.1 hlog
  exact segment_of_not_reaches (h i)

theorem segment_right {operator : BinaryOperator} {left right : Expr} {value : Value}
    (h : (evaluate host left).Returns t value t') :
    segment host (.binary operator left right) t 1 part =
      match operator.needsRight value with
      | .ok true => journal host part t'
      | _ => [] := by
  rw [Returns] at h
  rw [segment, arrival?, approach, run_bind, h]
  dsimp only
  rcases operator.needsRight value with error | _ | _
  · rfl
  · rfl
  · rfl

theorem segment_thenBranch {condition thenBranch elseBranch : Expr} {value : Value}
    (h : (evaluate host condition).Returns t value t') :
    segment host (.conditional condition thenBranch elseBranch) t 1 part =
      match value.toBoolean with
      | .ok true => journal host part t'
      | _ => [] := by
  rw [Returns] at h
  rw [segment, arrival?, approach, run_bind, h]
  dsimp only
  rcases value.toBoolean with error | _ | _
  · rfl
  · rfl
  · rfl

theorem segment_elseBranch {condition thenBranch elseBranch : Expr} {value : Value}
    (h : (evaluate host condition).Returns t value t') :
    segment host (.conditional condition thenBranch elseBranch) t 2 part =
      match value.toBoolean with
      | .ok false => journal host part t'
      | _ => [] := by
  rw [Returns] at h
  rw [segment, arrival?, approach, run_bind, h]
  dsimp only
  rcases value.toBoolean with error | _ | _
  · rfl
  · rfl
  · rfl

theorem segment_key {object key : Expr} {value : Value}
    (h : (evaluate host object).Returns t value t') :
    segment host (.index object key) t 1 part =
      if value.isNull then [] else journal host part t' := by
  rw [Returns] at h
  rw [segment, arrival?, approach, run_bind, h]
  dsimp only
  cases value.isNull with
  | true => rfl
  | false => rfl

theorem events_beneath {lists : List (List Entry)} :
    (beneath Entry.inside lists).map Entry.event = lists.flatten.map Entry.event :=
  map_beneath fun _ _ => rfl

theorem events_journal : (journal host e t).map Entry.event =
    (opening host e t).map Entry.event ++ (segments host e t).flatten.map Entry.event ++
      (closing host e t).map Entry.event := by
  rw [journal_eq, List.map_append, List.map_append, events_beneath]

end

/-! ## The trace that is written -/

namespace Evaluation

/-- The computation asks the host for nothing. -/
def Quiet {α : Type} (x : Evaluation α) : Prop :=
  ∀ t, (x.run t).2 = t

section

variable {α β : Type} {x : Evaluation α} {f : α → Evaluation β} {t : Trace}

theorem quiet_pure {a : α} : (pure a : Evaluation α).Quiet :=
  fun _ => rfl

theorem quiet_throw {failure : Failure} : (throw failure : Evaluation α).Quiet :=
  fun _ => rfl

theorem quiet_ofResult {result : Except Failure α} : (ofResult result).Quiet := by
  cases result with
  | ok => exact quiet_pure
  | error => exact quiet_throw

/-- What follows without asking does not add to the trace. -/
theorem trace_bind (hf : ∀ a, (f a).Quiet) : ((x >>= f).run t).2 = (x.run t).2 := by
  rw [run_bind]
  rcases x.run t with ⟨failure | a, t'⟩
  · rfl
  · exact hf a t'

theorem trace_record_bind {event : Event} {f : Unit → Evaluation α} (hf : (f ()).Quiet) :
    ((record event >>= f).run t).2 = t ++ [event] :=
  trace_bind fun _ => hf

end

end Evaluation

section

variable {host : Host} {qualifier : Option Text} {name : Text} {t : Trace}

theorem trace_askVariable : ((host.askVariable name).run t).2 =
    t ++ [.variableLookup name (host.resolveVariable t name)] := by
  rw [Host.askVariable, run_bind]
  refine trace_record_bind ?_
  split
  · exact quiet_pure
  · exact quiet_pure
  · exact quiet_throw

theorem trace_askFunction : ((host.askFunction qualifier name).run t).2 =
    t ++ [.functionLookup qualifier name
      ((host.resolveFunction t qualifier name).map (·.isSome))] := by
  rw [Host.askFunction, run_bind]
  refine trace_record_bind ?_
  split
  · exact quiet_pure
  · exact quiet_throw
  · exact quiet_throw

theorem trace_call {function : HostFunction} {arguments : List Value} :
    ((Host.call qualifier name function arguments).run t).2 =
      t ++ [.call qualifier name arguments (function t arguments)] := by
  rw [Host.call, run_bind]
  refine trace_record_bind ?_
  split
  · exact quiet_pure
  · exact quiet_throw

theorem trace_applyBinary {operator : BinaryOperator} {value : Value} {right : Evaluation Value} :
    ((applyBinary operator value right).run t).2 =
      match operator.needsRight value with
      | .ok true => (right.run t).2
      | _ => t := by
  rw [applyBinary_eq]
  rcases operator.needsRight value with error | _ | _
  · rfl
  · rfl
  · exact trace_bind fun _ => quiet_ofResult

theorem trace_lookUp {object : Value} {key : Evaluation Value} :
    ((lookUp object key).run t).2 = if object.isNull then t else (key.run t).2 := by
  rw [lookUp]
  cases object.isNull with
  | true => rfl
  | false =>
    refine trace_bind fun value => ?_
    split
    · exact quiet_pure
    · exact quiet_ofResult

theorem trace_ifThenElse {value : Value} {x y : Evaluation Value} :
    ((do if ← ofCoercion value.toBoolean then x else y : Evaluation Value).run t).2 =
      match value.toBoolean with
      | .ok true => (x.run t).2
      | .ok false => (y.run t).2
      | .error _ => t := by
  rcases value.toBoolean with error | _ | _
  · rfl
  · rfl
  · rfl

end

section

variable {host : Host} {e : Expr} {i : Nat} {t t₁ : Trace}

/-- The journal of the tree is what its evaluation adds to the trace. -/
def Logged (host : Host) (e : Expr) : Prop :=
  ∀ t, ((evaluate host e).run t).2 = t ++ (journal host e t).map Entry.event

theorem logged_unary {operator : UnaryOperator} {operand : Expr} (h : Logged host operand) :
    Logged host (.unary operator operand) := by
  intro t
  rw [events_journal, evaluate_unary, trace_bind fun _ => quiet_ofResult, segments_unary, h]
  simp [opening, closing]

theorem logged_member {object : Expr} {name : Text} (h : Logged host object) :
    Logged host (.member object name) := by
  intro t
  rw [events_journal, evaluate_member, segments_member, trace_bind, h]
  · simp [opening, closing]
  · intro value t'
    rw [trace_lookUp]
    exact ite_self t'

theorem logged_binary {operator : BinaryOperator} {left right : Expr} (hleft : Logged host left)
    (hright : Logged host right) : Logged host (.binary operator left right) := by
  intro t
  rw [events_journal, evaluate_binary, segments_binary, run_bind]
  simp only [opening, closing, List.nil_append, List.append_nil, List.map_nil, List.flatten_cons,
    List.flatten_nil, List.map_append, ← List.append_assoc, ← hleft t]
  rcases hrun : (evaluate host left).run t with ⟨failure | value, t₁⟩
  · have hnot : ∀ t', ¬ Reaches host (.binary operator left right) t 1 t'
      | _, .right hvalue _ => hvalue.not_fails hrun
    rw [segment_of_not_reaches hnot]
    exact (List.append_nil t₁).symm
  · rw [segment_right hrun]
    refine trace_applyBinary.trans ?_
    rcases operator.needsRight value with error | _ | _
    · exact (List.append_nil t₁).symm
    · exact (List.append_nil t₁).symm
    · exact hright t₁

theorem logged_index {object key : Expr} (hobject : Logged host object) (hkey : Logged host key) :
    Logged host (.index object key) := by
  intro t
  rw [events_journal, evaluate_index, segments_index, run_bind]
  simp only [opening, closing, List.nil_append, List.append_nil, List.map_nil, List.flatten_cons,
    List.flatten_nil, List.map_append, ← List.append_assoc, ← hobject t]
  rcases hrun : (evaluate host object).run t with ⟨failure | value, t₁⟩
  · have hnot : ∀ t', ¬ Reaches host (.index object key) t 1 t'
      | _, .key hvalue _ => hvalue.not_fails hrun
    rw [segment_of_not_reaches hnot]
    exact (List.append_nil t₁).symm
  · rw [segment_key hrun]
    refine trace_lookUp.trans ?_
    cases value.isNull with
    | true => exact (List.append_nil t₁).symm
    | false => exact hkey t₁

theorem logged_conditional {condition thenBranch elseBranch : Expr}
    (hcondition : Logged host condition) (hthen : Logged host thenBranch)
    (helse : Logged host elseBranch) :
    Logged host (.conditional condition thenBranch elseBranch) := by
  intro t
  rw [events_journal, evaluate_conditional, segments_conditional, run_bind]
  simp only [opening, closing, List.nil_append, List.append_nil, List.map_nil, List.flatten_cons,
    List.flatten_nil, List.map_append, ← List.append_assoc, ← hcondition t]
  rcases hrun : (evaluate host condition).run t with ⟨failure | value, t₁⟩
  · have hnotThen : ∀ t', ¬ Reaches host (.conditional condition thenBranch elseBranch) t 1 t'
      | _, .thenBranch hvalue _ => hvalue.not_fails hrun
    have hnotElse : ∀ t', ¬ Reaches host (.conditional condition thenBranch elseBranch) t 2 t'
      | _, .elseBranch hvalue _ => hvalue.not_fails hrun
    rw [segment_of_not_reaches hnotThen, segment_of_not_reaches hnotElse]
    exact ((List.append_nil _).trans (List.append_nil t₁)).symm
  · rw [segment_thenBranch hrun, segment_elseBranch hrun]
    refine trace_ifThenElse.trans ?_
    rcases value.toBoolean with error | _ | _
    · exact ((List.append_nil _).trans (List.append_nil t₁)).symm
    · exact (helse t₁).trans (congrArg (· ++ _) (List.append_nil t₁).symm)
    · exact (hthen t₁).trans (List.append_nil _).symm

/-- The arguments from the first one on add their journals to the trace, each where those in front
of it end. -/
theorem trace_arguments {qualifier : Option Text} {name : Text} {arguments : List Expr}
    {function : HostFunction} (hfunction : (host.askFunction qualifier name).Returns t function t₁)
    (harguments : ∀ argument ∈ arguments, Logged host argument) (i : Nat) :
    (((arguments.take i).mapM (evaluate host)).run t₁).2 =
      t₁ ++ ((segments host (.call qualifier name arguments) t).take i).flatten.map
        Entry.event := by
  induction i with
  | zero => exact (List.append_nil t₁).symm
  | succ i ih =>
    have hsegment : (segments host (.call qualifier name arguments) t)[i]? =
        arguments[i]?.map (segment host (.call qualifier name arguments) t i) :=
      List.getElem?_mapIdx
    rw [List.take_add_one, List.take_add_one, hsegment]
    cases hargument : arguments[i]? with
    | none => simpa using ih
    | some argument =>
      rw [List.mapM_append, run_bind]
      simp only [Option.toList_some, Option.map_some, List.flatten_append, List.map_append,
        List.flatten_singleton, ← List.append_assoc, ← ih]
      -- The evaluation comes to this argument if and only if those in front of it return.
      rcases hrun : ((arguments.take i).mapM (evaluate host)).run t₁ with ⟨failure | values, t₂⟩
      · have hnot : ∀ t', ¬ Reaches host (.call qualifier name arguments) t i t' := by
          intro t' h
          cases h with
          | argument hfunction' hbefore =>
            obtain ⟨-, rfl⟩ := hfunction.unique hfunction'
            exact hbefore.not_fails hrun
        simp only [segment_of_not_reaches hnot, List.map_nil, List.append_nil]
      · have hmem := List.mem_of_getElem? hargument
        simp only [segment_of_reaches (.argument hfunction hrun), ← harguments argument hmem _]
        refine (trace_bind fun _ => quiet_pure).trans ?_
        rw [List.mapM_cons]
        exact trace_bind fun _ => quiet_pure

theorem logged_call {qualifier : Option Text} {name : Text} {arguments : List Expr}
    (harguments : ∀ argument ∈ arguments, Logged host argument) :
    Logged host (.call qualifier name arguments) := by
  intro t
  have hopening : ((host.askFunction qualifier name).run t).2 =
      t ++ (opening host (.call qualifier name arguments) t).map Entry.event :=
    trace_askFunction
  rw [events_journal, evaluate_call, run_bind, closing, ← List.append_assoc, ← List.append_assoc,
    ← hopening]
  rcases hfunction : (host.askFunction qualifier name).run t with ⟨failure | function, t₁⟩
  · have hnot : ∀ i t', ¬ Reaches host (.call qualifier name arguments) t i t'
      | _, _, .argument hfunction' _ => hfunction'.not_fails hfunction
    rw [flatten_segments_of_not_reaches hnot]
    exact ((List.append_nil _).trans (List.append_nil t₁)).symm
  · have hlength : (segments host (.call qualifier name arguments) t).length = arguments.length :=
      length_segments
    have hparts := trace_arguments hfunction harguments arguments.length
    rw [List.take_length, List.take_of_length_le (Nat.le_of_eq hlength)] at hparts
    dsimp only
    rw [← hparts, run_bind]
    rcases (arguments.mapM (evaluate host)).run t₁ with ⟨failure | values, t₂⟩
    · exact (List.append_nil t₂).symm
    · exact trace_call

/-- **The journal is what an evaluation adds to the trace**, whether it returns or fails. -/
theorem logged (host : Host) (e : Expr) : Logged host e := by
  induction e using Expr.induction_parts with
  | node e ih =>
    cases e with
    | literal value =>
      intro t
      rw [evaluate_literal, events_journal]
      exact (List.append_nil t).symm
    | foreign typeName =>
      intro t
      rw [evaluate_foreign, events_journal]
      exact (List.append_nil t).symm
    | identifier name =>
      intro t
      rw [evaluate_identifier, trace_askVariable, events_journal]
      rfl
    | unary operator operand => exact logged_unary (ih operand List.mem_cons_self)
    | member object name => exact logged_member (ih object List.mem_cons_self)
    | binary operator left right =>
      have hright := ih right (List.mem_cons_of_mem _ List.mem_cons_self)
      exact logged_binary (ih left List.mem_cons_self) hright
    | index object key =>
      have hkey := ih key (List.mem_cons_of_mem _ List.mem_cons_self)
      exact logged_index (ih object List.mem_cons_self) hkey
    | conditional condition thenBranch elseBranch =>
      have hthen := ih thenBranch (List.mem_cons_of_mem _ List.mem_cons_self)
      have helse := ih elseBranch (List.mem_cons_of_mem _ (List.mem_cons_of_mem _
        List.mem_cons_self))
      exact logged_conditional (ih condition List.mem_cons_self) hthen helse
    | call qualifier name arguments => exact logged_call ih

theorem Evaluation.Returns.trace_eq {value : Value} (h : (evaluate host e).Returns t value t₁) :
    t₁ = t ++ (journal host e t).map Entry.event := by
  rw [← logged, h]

/-- An evaluation comes to a part when the host has been asked for what the node opens with and for
all that the earlier parts ask for. -/
theorem Reaches.trace_eq (h : Reaches host e t i t₁) :
    t₁ = t ++ (opening host e t).map Entry.event ++
      ((segments host e t).take i).flatten.map Entry.event := by
  cases h with
  | operand | left | condition | memberObject | indexObject =>
    exact ((List.append_nil _).trans (List.append_nil t)).symm
  | right hvalue =>
    rw [hvalue.trace_eq, segments_binary]
    simp [opening]
  | key hvalue =>
    rw [hvalue.trace_eq, segments_index]
    simp [opening]
  | thenBranch hvalue =>
    rw [hvalue.trace_eq, segments_conditional]
    simp [opening]
  | elseBranch hvalue hfalse =>
    rw [hvalue.trace_eq, segments_conditional, segment_thenBranch hvalue, hfalse]
    simp [opening]
  | argument hfunction hvalues =>
    have hopening := trace_askFunction.symm.trans (congrArg Prod.snd hfunction)
    rw [opening, List.map_singleton, hopening, ← trace_arguments hfunction fun _ _ => logged host _]
    exact (congrArg Prod.snd hvalues).symm

/-! ## Who asks -/

/-- The node, evaluated from the first trace, asks the host for this with the second trace: the
value of its name, its function, or the call of that function with the values of its arguments. -/
inductive Makes (host : Host) : Expr → Trace → Trace → Event → Prop where
  | variable {name : Text} {t : Trace} :
    Makes host (.identifier name) t t (.variableLookup name (host.resolveVariable t name))
  | function {qualifier : Option Text} {name : Text} {arguments : List Expr} {t : Trace} :
    Makes host (.call qualifier name arguments) t t (.functionLookup qualifier name
      ((host.resolveFunction t qualifier name).map (·.isSome)))
  | call {qualifier : Option Text} {name : Text} {arguments : List Expr} {function : HostFunction}
      {values : List Value} {t t₁ t₂ : Trace} :
    (host.askFunction qualifier name).Returns t function t₁ →
    (arguments.mapM (evaluate host)).Returns t₁ values t₂ →
    Makes host (.call qualifier name arguments) t t₂
      (.call qualifier name values (function t₂ values))

theorem opening_cases (host : Host) (e : Expr) (t : Trace) : opening host e t = [] ∨
    ∃ event, opening host e t = [⟨[], event⟩] ∧ Makes host e t t event := by
  cases e with
  | identifier => exact .inr ⟨_, rfl, .variable⟩
  | call => exact .inr ⟨_, rfl, .function⟩
  | literal | unary | binary | conditional | member | index | foreign => exact .inl rfl

theorem closing_of_returns {qualifier : Option Text} {name : Text} {arguments : List Expr}
    {function : HostFunction} {values : List Value} {t₂ : Trace}
    (hfunction : (host.askFunction qualifier name).Returns t function t₁)
    (hvalues : (arguments.mapM (evaluate host)).Returns t₁ values t₂) :
    closing host (.call qualifier name arguments) t =
      [⟨[], .call qualifier name values (function t₂ values)⟩] := by
  rw [Returns] at hfunction hvalues
  rw [closing, hfunction]
  dsimp only
  rw [hvalues]

theorem closing_cases (host : Host) (e : Expr) (t : Trace) : closing host e t = [] ∨
    ∃ qualifier name arguments function values t₁ t₂,
      e = .call qualifier name arguments ∧
      (host.askFunction qualifier name).Returns t function t₁ ∧
      (arguments.mapM (evaluate host)).Returns t₁ values t₂ ∧
      closing host e t = [⟨[], .call qualifier name values (function t₂ values)⟩] := by
  cases e with
  | literal | identifier | unary | binary | conditional | member | index | foreign => exact .inl rfl
  | call qualifier name arguments =>
    rcases hfunction : (host.askFunction qualifier name).run t with ⟨failure | function, t₁⟩
    · exact .inl (by rw [closing, hfunction])
    · rcases hvalues : (arguments.mapM (evaluate host)).run t₁ with ⟨failure | values, t₂⟩
      · refine .inl ?_
        rw [closing, hfunction]
        dsimp only
        rw [hvalues]
      · exact .inr ⟨qualifier, name, arguments, function, values, t₁, t₂, rfl, hfunction, hvalues,
          closing_of_returns hfunction hvalues⟩

/-- A call is made when the host has been asked for all that its arguments ask for. -/
theorem trace_eq_of_returns {qualifier : Option Text} {name : Text} {arguments : List Expr}
    {function : HostFunction} {values : List Value} {t₂ : Trace}
    (hfunction : (host.askFunction qualifier name).Returns t function t₁)
    (hvalues : (arguments.mapM (evaluate host)).Returns t₁ values t₂) :
    t₂ = t ++ (opening host (.call qualifier name arguments) t).map Entry.event ++
      (segments host (.call qualifier name arguments) t).flatten.map Entry.event := by
  have hreaches : Reaches host (.call qualifier name arguments) t arguments.length t₂ :=
    .argument hfunction (by rwa [List.take_length])
  have hlength : (segments host (.call qualifier name arguments) t).length = arguments.length :=
    length_segments
  rw [hreaches.trace_eq, List.take_of_length_le (Nat.le_of_eq hlength)]

theorem concat_prefix_singleton {α : Type} {before : List α} {a b : α} (h : before ++ [a] <+: [b]) :
    before = [] ∧ a = b := by
  rcases List.prefix_cons_iff.1 h with heq | ⟨rest, heq, hrest⟩
  · exact absurd heq (by simp)
  · rw [List.prefix_nil.1 hrest] at heq
    simpa [List.append_eq_singleton_iff] using heq

theorem makes_of_mem_opening {entry : Entry} (h : entry ∈ opening host e t) :
    entry.place = [] ∧ Makes host e t t entry.event := by
  rcases opening_cases host e t with heq | ⟨event, heq, hmakes⟩
  · rw [heq] at h
    cases h
  · rw [heq] at h
    cases List.mem_singleton.1 h
    exact ⟨rfl, hmakes⟩

theorem call_of_mem_closing {entry : Entry} (h : entry ∈ closing host e t) :
    ∃ qualifier name arguments function values t₁ t₂,
      e = .call qualifier name arguments ∧
      (host.askFunction qualifier name).Returns t function t₁ ∧
      (arguments.mapM (evaluate host)).Returns t₁ values t₂ ∧
      entry = ⟨[], .call qualifier name values (function t₂ values)⟩ := by
  rcases closing_cases host e t with heq |
    ⟨qualifier, name, arguments, function, values, t₁, t₂, he, hfunction, hvalues, heq⟩
  · rw [heq] at h
    cases h
  · rw [heq] at h
    exact ⟨qualifier, name, arguments, function, values, t₁, t₂, he, hfunction, hvalues,
      List.mem_singleton.1 h⟩

/-- In front of an entry of a journal is what the node opens with, what the earlier parts ask for,
and what is in front of it in the journal of its own part. -/
theorem concat_prefix_journal {before : List Entry} {entry : Entry}
    (h : before ++ [entry] <+: journal host e t) :
    (before = [] ∧ entry ∈ opening host e t) ∨
    (∃ i part t₁ before' entry', e.parts[i]? = some part ∧ Reaches host e t i t₁ ∧
      before' ++ [entry'] <+: journal host part t₁ ∧ entry = entry'.inside i ∧
      before = opening host e t ++ beneath Entry.inside ((segments host e t).take i) ++
        before'.map (Entry.inside i)) ∨
    (before = opening host e t ++ beneath Entry.inside (segments host e t) ∧
      entry ∈ closing host e t) := by
  rw [journal_eq, List.append_assoc] at h
  rcases concat_prefix_append h with hopening | ⟨before, rfl, hbehind⟩
  · refine .inl ?_
    rcases opening_cases host e t with heq | ⟨event, heq, -⟩
    · rw [heq] at hopening
      simp at hopening
    · rw [heq] at hopening ⊢
      obtain ⟨rfl, rfl⟩ := concat_prefix_singleton hopening
      exact ⟨rfl, List.mem_singleton_self _⟩
  · rcases concat_prefix_append hbehind with hsegments | ⟨before, rfl, hclosing⟩
    · obtain ⟨i, log, before', entry', hlog, hprefix, rfl, rfl⟩ := concat_prefix_beneath hsegments
      rw [segments, List.getElem?_mapIdx, Option.map_eq_some_iff] at hlog
      obtain ⟨part, hpart, rfl⟩ := hlog
      rw [segment] at hprefix
      split at hprefix
      · rename_i t₁ harrival
        exact .inr (.inl ⟨i, part, t₁, before', entry', hpart, arrival?_eq_some.1 harrival,
          hprefix, rfl, (List.append_assoc ..).symm⟩)
      · simp at hprefix
    · refine .inr (.inr ?_)
      rcases closing_cases host e t with heq | ⟨_, _, _, _, _, _, _, _, _, _, heq⟩
      · rw [heq] at hclosing
        simp at hclosing
      · rw [heq] at hclosing ⊢
        obtain ⟨rfl, rfl⟩ := concat_prefix_singleton hclosing
        exact ⟨by simp, List.mem_singleton_self _⟩

/-- **Every event is that of the node at its place.**  The evaluation has come to that node, and the
node asks for this with the trace as it is there. -/
theorem makes_of_journal {before : List Entry} {entry : Entry}
    (h : before ++ [entry] <+: journal host e t) :
    ∃ node t₁, e.at? entry.place = some node ∧ Comes host e t entry.place t₁ ∧
      Makes host node t₁ (t ++ before.map Entry.event) entry.event := by
  induction e using Expr.induction_parts generalizing t before entry with
  | node e ih =>
    -- The entry is the node's own, with nothing in front, that of a part, or that of its call.
    rcases concat_prefix_journal h with ⟨rfl, hopening⟩ |
      ⟨i, part, t₁, before', entry', hpart, hreaches, hprefix, rfl, rfl⟩ | ⟨rfl, hclosing⟩
    · obtain ⟨hplace, hmakes⟩ := makes_of_mem_opening hopening
      rw [hplace]
      exact ⟨e, t, rfl, .here, by simpa using hmakes⟩
    · obtain ⟨node, t₂, hnode, hcomes, hmakes⟩ := ih part (List.mem_of_getElem? hpart) hprefix
      refine ⟨node, t₂, Expr.at?_cons_eq_some.2 ⟨part, hpart, hnode⟩,
        .inside hreaches hpart hcomes, ?_⟩
      have hinside : (before'.map (Entry.inside i)).map Entry.event = before'.map Entry.event :=
        List.map_map
      rw [List.map_append, List.map_append, events_beneath, hinside, ← List.append_assoc,
        ← List.append_assoc, ← hreaches.trace_eq]
      exact hmakes
    · obtain ⟨qualifier, name, arguments, function, values, t₁, t₂, rfl, hfunction, hvalues, rfl⟩ :=
        call_of_mem_closing hclosing
      refine ⟨_, t, rfl, .here, ?_⟩
      rw [List.map_append, events_beneath, ← List.append_assoc,
        ← trace_eq_of_returns hfunction hvalues]
      exact .call hfunction hvalues

end

end ExprLang
