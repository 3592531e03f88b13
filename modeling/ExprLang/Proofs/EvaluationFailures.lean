import ExprLang.Host.Variables
import ExprLang.Proofs.ParsedTrees

/-!
# The failures of an evaluation

Whatever the values of the variables are and whatever the functions do, the evaluation of a tree
that has been parsed fails with one of the engine's own failures, but for two that come from
underneath, the remainder of an infinite dividend and the text of a container that holds an integer
of too many digits, and one that comes from the host: the engine words what the host fails with, and
if this has no text, then what asking for the text fails with gets through.

* `Value.Oversized` — a container that has no text.
* `BinaryOperator.apply_eq_error`, `Value.access_eq_error` — how operators and look-ups fail.
* `HostRaises` — a node at which the host fails.
* `Escapes` — a node that fails with a failure that is not the engine's own.
* `evaluate_fails_as_evaluation` — the failures of a parsed tree.
* `evaluate_fails_beyond_evaluation` — a call that fails with neither of those from underneath.
-/

namespace ExprLang

open Evaluation

/-! ## Values without a text -/

namespace Value

/-- The values right inside of a list, a tuple or a dictionary. -/
def contents : Value → List Value
  | .list items | .tuple items => items
  | .dict entries => entries.flatMap fun entry => [entry.1, entry.2]
  | _ => []

/-- The value, or a value inside of it at any depth. -/
inductive Within (inner : Value) : Value → Prop where
  | self : Within inner inner
  | inside {item outer : Value} : item ∈ outer.contents → Within inner item → Within inner outer

/-- An integer of more than 4300 decimal digits is the value or inside of it. -/
def HoldsLongInteger (v : Value) : Prop :=
  ∃ i : Int, 10 ^ digitLimit ≤ i.natAbs ∧ Within (.long i) v

def isContainer : Value → Bool
  | .list _ | .tuple _ | .dict _ => true
  | _ => false

/-- A list, a tuple or a dictionary that has no text because it holds, at some depth, an integer of
more than 4300 digits. -/
structure Oversized (v : Value) : Prop where
  isContainer : v.isContainer = true
  quoted?_eq : v.quoted? = none
  holds : v.HoldsLongInteger

theorem HoldsLongInteger.inside {item v : Value} (h : item.HoldsLongInteger)
    (hitem : item ∈ v.contents) : v.HoldsLongInteger := by
  obtain ⟨i, hlimit, hwithin⟩ := h
  exact ⟨i, hlimit, .inside hitem hwithin⟩

theorem le_of_integerText? {i : Int} (h : integerText? i = none) : 10 ^ digitLimit ≤ i.natAbs := by
  unfold integerText? at h
  split at h
  · cases h
  · rename_i hlimit
    exact Nat.le_of_not_lt hlimit

theorem exists_of_quotedItems? {items : List Value} (h : quotedItems? items = none) :
    ∃ item ∈ items, item.quoted? = none := by
  induction items with
  | nil => cases h
  | cons item items ih =>
    cases hitem : item.quoted? with
    | none => exact ⟨item, List.mem_cons_self, hitem⟩
    | some text =>
      cases hitems : quotedItems? items with
      | none =>
        obtain ⟨other, hother, hquoted⟩ := ih hitems
        exact ⟨other, List.mem_cons_of_mem item hother, hquoted⟩
      | some texts => simp [quotedItems?, hitem, hitems] at h

theorem exists_of_quotedEntries? {entries : List (Value × Value)}
    (h : quotedEntries? entries = none) :
    ∃ item ∈ (Value.dict entries).contents, item.quoted? = none := by
  induction entries with
  | nil => cases h
  | cons entry entries ih =>
    have hfirst : ∀ item ∈ [entry.1, entry.2], item ∈ (Value.dict (entry :: entries)).contents :=
      fun item hitem => List.mem_append_left _ hitem
    cases hkey : entry.1.quoted? with
    | none => exact ⟨entry.1, hfirst _ (by simp), hkey⟩
    | some keyText =>
      cases hvalue : entry.2.quoted? with
      | none => exact ⟨entry.2, hfirst _ (by simp), hvalue⟩
      | some valueText =>
        cases hentries : quotedEntries? entries with
        | none =>
          obtain ⟨other, hother, hquoted⟩ := ih hentries
          exact ⟨other, List.mem_append_right _ hother, hquoted⟩
        | some texts => simp [quotedEntries?, hkey, hvalue, hentries] at h

/-- A value without a text is an integer of its own, or it holds another such value. -/
theorem long_or_exists_of_quoted? {v : Value} (h : v.quoted? = none) :
    (∃ i, v = .long i ∧ integerText? i = none) ∨
      v.isContainer = true ∧ ∃ item ∈ v.contents, item.quoted? = none := by
  cases v with
  | long i => exact .inl ⟨i, rfl, by rwa [quoted?] at h⟩
  | list items | tuple items =>
    rw [quoted?, Option.map_eq_none_iff] at h
    exact .inr ⟨rfl, exists_of_quotedItems? h⟩
  | dict entries =>
    rw [quoted?, Option.map_eq_none_iff] at h
    exact .inr ⟨rfl, exists_of_quotedEntries? h⟩
  | boolean b => cases b <;> simp [quoted?] at h
  | _ => simp [quoted?] at h

theorem sizeOf_content_lt {item v : Value} (h : item ∈ v.contents) : sizeOf item < sizeOf v := by
  cases v with
  | list items =>
    have := List.sizeOf_lt_of_mem (show item ∈ items from h)
    rw [list.sizeOf_spec]
    omega
  | tuple items =>
    have := List.sizeOf_lt_of_mem (show item ∈ items from h)
    rw [tuple.sizeOf_spec]
    omega
  | dict entries =>
    obtain ⟨⟨key, value⟩, hentry, hitem⟩ := List.mem_flatMap.1 h
    have := List.sizeOf_lt_of_mem hentry
    rw [Prod.mk.sizeOf_spec] at this
    rw [dict.sizeOf_spec]
    simp only [List.mem_cons, List.not_mem_nil, or_false] at hitem
    rcases hitem with rfl | rfl <;> omega
  | _ => cases h

theorem holds_of_quoted? {v : Value} (h : v.quoted? = none) : v.HoldsLongInteger := by
  induction hsize : sizeOf v using Nat.strongRecOn generalizing v with
  | ind size ih =>
    subst hsize
    rcases long_or_exists_of_quoted? h with ⟨i, rfl, htext⟩ | ⟨-, item, hitem, hquoted⟩
    · exact ⟨i, le_of_integerText? htext, .self⟩
    · exact (ih _ (sizeOf_content_lt hitem) hquoted rfl).inside hitem

section

variable {v w key object : Value} {failure : Failure}

/-- The failure says that the value is a container without a text, which it is. -/
def Textless (v : Value) (failure : Failure) : Prop :=
  failure = .textlessContainer v.typeName ∧ v.Oversized

theorem toText_eq_error (h : v.toText = .error failure) :
    failure.isEvaluation = true ∨ v.Textless failure := by
  unfold toText at h
  split at h
  · cases h
  · cases h
  · cases h
  · split at h <;> cases h
    exact .inl rfl
  · cases h
  · rename_i hlong _
    unfold quotedText at h
    split at h <;> cases h
    rename_i hquoted
    rcases long_or_exists_of_quoted? hquoted with ⟨i, rfl, -⟩ | ⟨hcontainer, -⟩
    · exact absurd rfl (hlong i)
    · exact .inr ⟨rfl, hcontainer, hquoted, holds_of_quoted? hquoted⟩

/-- A value that cannot be a key is a container. -/
theorem isContainer_of_not_isHashable (h : v.isHashable = false) : v.isContainer = true := by
  cases v <;> first | rfl | simp [isHashable] at h

/-! ## Operators -/

theorem isEvaluation_of_ofCoercion {α : Type} {result : Except CoercionError α}
    (h : Failure.ofCoercion result = .error failure) : failure.isEvaluation = true := by
  cases result with
  | ok => cases h
  | error error =>
    cases h
    rfl

theorem error_of_map {α β ε : Type} {result : Except ε α} {f : α → β} {error : ε}
    (h : result.map f = .error error) : result = .error error := by
  cases result with
  | ok => cases h
  | error =>
    cases h
    rfl

/-- The failure says that one of two operands is a container without a text. -/
def TextlessOperand (v w : Value) (failure : Failure) : Prop :=
  v.Textless failure ∨ w.Textless failure

theorem texts_eq_error {α : Type} {f : Text → Text → α}
    (h : (do return f (← v.toText) (← w.toText)) = Except.error failure) :
    failure.isEvaluation = true ∨ TextlessOperand v w failure := by
  cases hleft : v.toText with
  | error error =>
    rw [hleft] at h
    cases h
    exact (toText_eq_error hleft).imp_right .inl
  | ok s =>
    cases hright : w.toText with
    | error error =>
      rw [hleft, hright] at h
      cases h
      exact (toText_eq_error hright).imp_right .inr
    | ok t =>
      rw [hleft, hright] at h
      cases h

theorem concatenate_eq : v.concatenate w = do return .string ((← v.toText) ++ (← w.toText)) := by
  unfold concatenate
  cases v.toText with
  | error => rfl
  | ok => cases w.toText <;> rfl

theorem equalTexts_eq : v.equalTexts w = do return decide ((← v.toText) = (← w.toText)) := by
  unfold equalTexts
  cases v.toText with
  | error => rfl
  | ok => cases w.toText <;> rfl

theorem concatenate_eq_error (h : v.concatenate w = .error failure) :
    failure.isEvaluation = true ∨ TextlessOperand v w failure :=
  texts_eq_error (concatenate_eq.symm.trans h)

theorem equals_eq_error (h : v.equals w = .error failure) :
    failure.isEvaluation = true ∨ TextlessOperand v w failure := by
  unfold equals at h
  split at h
  · cases h
  · split at h
    · exact .inl (isEvaluation_of_ofCoercion h)
    · split at h
      · exact texts_eq_error (equalTexts_eq.symm.trans h)
      · split at h
        · exact .inl (isEvaluation_of_ofCoercion h)
        · split at h
          · exact texts_eq_error (equalTexts_eq.symm.trans h)
          · cases h

theorem compare_eq_error {accepts : Ordering → Bool} (h : compare accepts v w = .error failure) :
    failure.isEvaluation = true := by
  unfold compare at h
  split at h
  · cases h
  · exact isEvaluation_of_ofCoercion h

theorem matchesPattern_eq_error (h : v.matchesPattern w = .error failure) :
    failure.isEvaluation = true := by
  unfold matchesPattern at h
  split at h <;> cases h
  rfl

theorem arithmetic_eq_error {onLongs : Int → Int → Except Failure Int}
    {onDoubles : Double → Double → Except Failure Double}
    (h : arithmetic onLongs onDoubles v w = .error failure) :
    failure.isEvaluation = true ∨ (∃ a b, onLongs a b = .error failure) ∨
      ∃ x y, numericPair v w = .ok (.doubles x y) ∧ onDoubles x y = .error failure := by
  unfold arithmetic at h
  split at h
  · cases h
  · split at h
    · cases h
      exact .inl rfl
    · exact .inr (.inl ⟨_, _, error_of_map h⟩)
    · rename_i x y hpair
      exact .inr (.inr ⟨x, y, hpair, error_of_map h⟩)

/-- Arithmetic whose operations do not fail. -/
theorem arithmetic_ok_eq_error {onLongs : Int → Int → Int} {onDoubles : Double → Double → Double}
    (h : arithmetic (fun a b => .ok (onLongs a b)) (fun x y => .ok (onDoubles x y)) v w =
      .error failure) : failure.isEvaluation = true := by
  rcases arithmetic_eq_error h with h | ⟨a, b, h⟩ | ⟨x, y, -, h⟩
  · exact h
  · cases h
  · cases h

theorem add_eq_error (h : v.add w = .error failure) :
    failure.isEvaluation = true ∨ TextlessOperand v w failure := by
  unfold add at h
  split at h
  · exact concatenate_eq_error h
  · exact .inl (arithmetic_ok_eq_error h)

theorem divide_eq_error (h : v.divide w = .error failure) : failure.isEvaluation = true := by
  unfold divide at h
  split at h
  · cases h
  · split at h
    · cases h
      rfl
    · split at h
      · cases h
        rfl
      · split at h <;> cases h
        rfl

/-- `%` works on doubles, of which the first is infinite and the second neither zero nor not a
number. -/
def InfiniteDividend (v w : Value) : Prop :=
  ∃ negative y, numericPair v w = .ok (.doubles (.infinite negative) y) ∧ y.isZero = false ∧
    ∀ mark, y ≠ .nan mark

theorem doubleRemainder_eq_error {x y : Double} (h : doubleRemainder x y = .error failure) :
    failure = .moduloByZero ∨ failure = .infiniteDividend ∧ y.isZero = false ∧
      (∀ mark, y ≠ .nan mark) ∧ ∃ negative, x = .infinite negative := by
  unfold doubleRemainder at h
  split at h
  · cases h
    exact .inl rfl
  · rename_i hzero
    split at h <;> cases h
    rename_i hremainder
    rw [Bool.not_eq_true] at hzero
    refine .inr ⟨rfl, hzero, ?_, ?_⟩
    · rintro mark rfl
      cases x <;> cases hremainder
    · cases x with
      | infinite negative => exact ⟨negative, rfl⟩
      | nan => cases hremainder
      | finite =>
        cases y with
        | nan | infinite => cases hremainder
        | finite _ magnitude =>
          have hquanta : magnitude.quanta ≠ 0 := by simpa [Double.isZero] using hzero
          simp [Double.remainder?, hquanta] at hremainder

theorem remainder_eq_error (h : v.remainder w = .error failure) :
    failure.isEvaluation = true ∨ failure = .infiniteDividend ∧ InfiniteDividend v w := by
  rcases arithmetic_eq_error h with h | ⟨a, b, h⟩ | ⟨x, y, hpair, h⟩
  · exact .inl h
  · unfold longRemainder at h
    split at h <;> cases h
    exact .inl rfl
  · rcases doubleRemainder_eq_error h with rfl | ⟨rfl, hzero, hnan, negative, rfl⟩
    · exact .inl rfl
    · exact .inr ⟨rfl, negative, y, hpair, hzero, hnan⟩

theorem negate_eq_error (h : v.negate = .error failure) : failure.isEvaluation = true := by
  unfold negate at h
  split at h
  · cases h
  · cases h
  · cases h
  · split at h <;> exact isEvaluation_of_ofCoercion h
  · cases h
    rfl

end

end Value

section

variable {left right : Expr} {v w : Value} {failure : Failure}

theorem UnaryOperator.apply_eq_error {operator : UnaryOperator} {operand : Expr}
    (hbuilt : (Expr.unary operator operand).IsBuilt) (h : operator.apply v = .error failure) :
    failure.isEvaluation = true := by
  cases operator with
  | not => exact Value.isEvaluation_of_ofCoercion h
  | negate => exact Value.negate_eq_error h
  | empty => cases h
  | unknown => exact hbuilt.elim

theorem BinaryOperator.apply_eq_error {operator : BinaryOperator}
    (hbuilt : (Expr.binary operator left right).IsBuilt)
    (h : operator.apply v w = .error failure) :
    failure.isEvaluation = true ∨ v.TextlessOperand w failure ∨
      operator = .modulo ∧ failure = .infiniteDividend ∧ v.InfiniteDividend w := by
  cases operator with
  | or | and => exact .inl (Value.isEvaluation_of_ofCoercion h)
  | eq | ne => exact (Value.equals_eq_error (Value.error_of_map h)).imp_right .inl
  | lt | le | gt | ge => exact .inl (Value.compare_eq_error (Value.error_of_map h))
  | wildcard => exact .inl (Value.matchesPattern_eq_error (Value.error_of_map h))
  | add => exact (Value.add_eq_error h).imp_right .inl
  | join => exact (Value.concatenate_eq_error h).imp_right .inl
  | subtract | multiply => exact .inl (Value.arithmetic_ok_eq_error h)
  | divide => exact .inl (Value.divide_eq_error h)
  | modulo => exact (Value.remainder_eq_error h).imp_right fun h => .inr ⟨rfl, h⟩
  | unknown => exact hbuilt.elim

/-! ## Look-ups -/

namespace Value

variable {object key : Value}

theorem accessItem_eq_error {typeName : Text} {items : List Value}
    (h : accessItem typeName items key = .error failure) :
    failure.isEvaluation = true ∨ key.Textless failure := by
  unfold accessItem at h
  split at h
  · cases h
  · split at h <;> cases h
    · exact .inl rfl
    · rename_i htext
      exact toText_eq_error htext

theorem accessAttribute_eq_error {typeName : Text} {failing : List (Text × Failure)}
    {attributes : List (Text × Value)}
    (h : accessAttribute typeName failing attributes key = .error failure) :
    failure.isEvaluation = true ∨ key.Textless failure ∨
      ∃ name cause, key.toText = .ok name ∧ failing.lookup name = some cause ∧
        cause.textFailure? = some failure := by
  unfold accessAttribute at h
  split at h
  · rename_i htext
    cases h
    exact (toText_eq_error htext).imp_right .inl
  · rename_i name htext
    split at h
    · cases h
      exact .inl rfl
    · split at h
      · rename_i cause hcause
        rcases Failure.eq_wrap_iff.1 (Except.error.inj h).symm with ⟨-, rfl⟩ | hraised
        · exact .inl rfl
        · exact .inr (.inr ⟨name, cause, htext, hcause, hraised⟩)
      · split at h <;> cases h
        exact .inl rfl

theorem accessScalar_eq_error {typeName : Text} (h : accessScalar typeName key = .error failure) :
    failure.isEvaluation = true ∨ key.Textless failure := by
  unfold accessScalar at h
  split at h <;> cases h
  · exact .inl rfl
  · rename_i htext
    exact toText_eq_error htext

theorem accessEntry_eq_error {entries : List (Value × Value)}
    (h : accessEntry entries key = .error failure) :
    failure.isEvaluation = true ∨ failure = .unquotable ∧ key.Oversized := by
  unfold accessEntry at h
  split at h
  · cases h
  · rename_i hhashable
    split at h <;> cases h
    · exact .inl rfl
    · rename_i hquoted
      have hcontainer := isContainer_of_not_isHashable (Bool.not_eq_true _ ▸ hhashable)
      exact .inr ⟨rfl, hcontainer, hquoted, holds_of_quoted? hquoted⟩

/-- The failure says that the value, a container, has no text or cannot be quoted. -/
def Unwritable (v : Value) (failure : Failure) : Prop :=
  (failure = .textlessContainer v.typeName ∨ failure = .unquotable) ∧ v.Oversized

theorem Textless.unwritable (h : v.Textless failure) : v.Unwritable failure :=
  ⟨.inl h.1, h.2⟩

/-- The key is the name of an attribute that cannot be read: reading it raises the cause. -/
def ReadingRaises (object key : Value) (cause : Failure) : Prop :=
  ∃ head attributes name, object = .host head attributes ∧ key.toText = .ok name ∧
    head.failing.lookup name = some cause

theorem access_eq_error (h : object.access key = .error failure) :
    failure.isEvaluation = true ∨ key.Unwritable failure ∨
      ∃ cause, object.ReadingRaises key cause ∧ cause.textFailure? = some failure := by
  cases object with
  | null => cases h
  | boolean | long | double => exact (accessScalar_eq_error h).imp_right fun h => .inl h.unwritable
  | dict => exact (accessEntry_eq_error h).imp_right fun h => .inl ⟨.inr h.1, h.2⟩
  | string | list | tuple | bytes =>
    exact (accessItem_eq_error h).imp_right fun h => .inl h.unwritable
  | host head attributes =>
    refine (accessAttribute_eq_error h).imp_right fun h => h.imp Textless.unwritable ?_
    rintro ⟨name, cause, htext, hcause, hraised⟩
    exact ⟨cause, ⟨head, attributes, name, rfl, htext, hcause⟩, hraised⟩
  | undefined =>
    have hattribute : accessAttribute "_Undefined".toList [] [] key = .error failure := h
    refine (accessAttribute_eq_error hattribute).imp_right fun h => h.imp Textless.unwritable ?_
    rintro ⟨_, _, _, hcause, _⟩
    cases hcause

end Value

end

/-! ## The host -/

/-- The host raises the cause at the node: where it looks up a variable or a function, in a function
that it calls, or where it reads an attribute of an object of its own. -/
inductive HostRaises (host : Host) : Expr → Trace → Failure → Prop where
  | variable {name : Text} {cause : Failure} {t : Trace} :
    host.resolveVariable t name = .error cause → HostRaises host (.identifier name) t cause
  | function {qualifier : Option Text} {name : Text} {arguments : List Expr} {cause : Failure}
      {t : Trace} :
    host.resolveFunction t qualifier name = .error cause →
    HostRaises host (.call qualifier name arguments) t cause
  | call {qualifier : Option Text} {name : Text} {arguments : List Expr} {function : HostFunction}
      {values : List Value} {cause : Failure} {t t₁ t₂ : Trace} :
    (host.askFunction qualifier name).Returns t function t₁ →
    (arguments.mapM (evaluate host)).Returns t₁ values t₂ → function t₂ values = .error cause →
    HostRaises host (.call qualifier name arguments) t cause
  | member {object : Expr} {name : Text} {v : Value} {cause : Failure} {t t₁ : Trace} :
    (evaluate host object).Returns t v t₁ → v.ReadingRaises (.string name) cause →
    HostRaises host (.member object name) t cause
  | index {object key : Expr} {v w : Value} {cause : Failure} {t t₁ t₂ : Trace} :
    (evaluate host object).Returns t v t₁ → (evaluate host key).Returns t₁ w t₂ →
    v.ReadingRaises w cause → HostRaises host (.index object key) t cause

section

variable {host : Host} {qualifier : Option Text} {name : Text} {failure cause : Failure}
  {t t' : Trace}

theorem isEvaluation_or_textFailure {outer : Failure → Failure}
    (houter : (outer cause).isEvaluation = true) (h : failure = .wrap outer cause) :
    failure.isEvaluation = true ∨ cause.textFailure? = some failure := by
  rcases Failure.eq_wrap_iff.1 h with ⟨-, rfl⟩ | hraised
  · exact .inl houter
  · exact .inr hraised

/-- What a look-up fails with is a failure of the engine, or what asking for the text of its cause
fails with. -/
theorem isEvaluation_or_textFailure_lookup {outer : Failure → Failure}
    (houter : (outer cause).isEvaluation = true)
    (h : failure = if cause.isEvaluation then cause else .wrap outer cause) :
    failure.isEvaluation = true ∨ cause.textFailure? = some failure := by
  split at h
  · rename_i hcause
    exact .inl (h ▸ hcause)
  · exact isEvaluation_or_textFailure houter h

end

/-! ## Trees -/

/-- The failures that are not the engine's own, with the node that they come from: the remainder of
an infinite dividend, the text of an operand or a key that has none, and the text of what the host
raises, if this has none. -/
inductive Escapes (host : Host) : Expr → Trace → Failure → Prop where
  | remainder {left right : Expr} {v w : Value} {t t₁ t₂ : Trace} :
    (evaluate host left).Returns t v t₁ → (evaluate host right).Returns t₁ w t₂ →
    v.InfiniteDividend w → Escapes host (.binary .modulo left right) t .infiniteDividend
  | text {node part : Expr} {v : Value} {failure : Failure} {t t₁ t₂ : Trace} :
    Enters host node t part t₁ → (evaluate host part).Returns t₁ v t₂ → v.Unwritable failure →
    Escapes host node t failure
  | cause {node : Expr} {cause failure : Failure} {t : Trace} :
    HostRaises host node t cause → cause.textFailure? = some failure → Escapes host node t failure

section

variable {host : Host} {e node : Expr} {failure : Failure} {t t' : Trace}

theorem not_unwritable_string {text : Text} : ¬ (Value.string text).Unwritable failure := by
  rintro ⟨-, hcontainer, -, -⟩
  cases hcontainer

/-- A node that the parser builds fails as an evaluation or with one of the failures from
underneath. -/
theorem isEvaluation_or_escapes (hbuilt : node.IsBuilt) (h : Raises host node t failure t') :
    failure.isEvaluation = true ∨ Escapes host node t failure := by
  cases h with
  | identifier h =>
    obtain ⟨cause, hcause, hfailure, -⟩ := fails_askVariable.1 h
    exact (isEvaluation_or_textFailure_lookup rfl hfailure).imp_right (.cause (.variable hcause))
  | unary _ happly => exact .inl (UnaryOperator.apply_eq_error hbuilt happly)
  | leftBoolean | condition => exact .inl rfl
  | binary hv hneeds hw happly =>
    rcases BinaryOperator.apply_eq_error hbuilt happly with h | (hv' | hw') | ⟨rfl, rfl, h⟩
    · exact .inl h
    · exact .inr (.text .left hv hv'.unwritable)
    · exact .inr (.text (.right hv hneeds) hw hw'.unwritable)
    · exact .inr (.remainder hv hw h)
  | member hvalue _ haccess =>
    rcases Value.access_eq_error haccess with h | h | ⟨cause, hcause, hraised⟩
    · exact .inl h
    · exact absurd h not_unwritable_string
    · exact .inr (.cause (.member hvalue hcause) hraised)
  | index hv hnull hw _ haccess =>
    rcases Value.access_eq_error haccess with h | h | ⟨cause, hcause, hraised⟩
    · exact .inl h
    · exact .inr (.text (.key hv hnull) hw h)
    · exact .inr (.cause (.index hv hw hcause) hraised)
  | function h =>
    rcases fails_askFunction.1 h with ⟨cause, hcause, hfailure, -⟩ | ⟨-, rfl, -⟩
    · exact (isEvaluation_or_textFailure_lookup rfl hfailure).imp_right (.cause (.function hcause))
    · exact .inl rfl
  | call hfunction hvalues h =>
    obtain ⟨cause, hcause, hfailure, -⟩ := fails_call.1 h
    exact (isEvaluation_or_textFailure rfl hfailure).imp_right
      (.cause (.call hfunction hvalues hcause))
  | foreign => exact hbuilt.elim

/-- **An evaluation fails with the engine's own failures.**  Whatever the host, the evaluation of a
tree that a source is read as returns a value or fails as an evaluation, unless it comes to a
remainder of an infinite dividend by what is neither zero nor not a number, to an operand or a key
that is a container without a text, because it holds an integer of too many digits, or to a look-up,
a call or a member at which the host fails with what has no text. -/
theorem evaluate_fails_as_evaluation {options : ParserOptions} {source : Text}
    (h : parse options source = .ok e) (host : Host) (t : Trace) :
    (∃ value t', (evaluate host e).Returns t value t') ∨
      ∃ failure t', (evaluate host e).Fails t failure t' ∧
        (failure.isEvaluation = true ∨ ∃ node t₁, Visits host e t node t₁ ∧
          Raises host node t₁ failure t' ∧ Escapes host node t₁ failure) := by
  rcases returns_or_fails (evaluate host e) t with hreturns | ⟨failure, t', hfails⟩
  · exact .inl hreturns
  · obtain ⟨node, t₁, hvisits, hraises⟩ := fails_iff_raises.1 hfails
    have hbuilt := (everywhere_isBuilt_of_parse h).visited hvisits
    refine .inr ⟨failure, t', hfails, ?_⟩
    exact (isEvaluation_or_escapes hbuilt hraises).imp_right fun hescapes =>
      ⟨node, t₁, hvisits, hraises, hescapes⟩

/-- `a % a` fails from underneath if `a` is infinite. -/
theorem evaluate_fails_as_evaluation_infinite :
    let host := Host.ofVariables [(['a'], .double (.infinite false))] .empty
    let e := Expr.binary .modulo (.identifier ['a']) (.identifier ['a'])
    parse {} ['a', '%', 'a'] = .ok e ∧ ∃ t',
      (evaluate host e).Fails [] .infiniteDividend t' ∧ ∃ node t₁, Visits host e [] node t₁ ∧
        Raises host node t₁ .infiniteDividend t' ∧ Escapes host node t₁ .infiniteDividend := by
  intro host e
  have hsplit : Split ['a', '%', 'a'] [⟨[], .identifier ['a'], ['a']⟩,
      ⟨[], .sign .modulo ['%'], ['%']⟩, ⟨[], .identifier ['a'], ['a']⟩] [] := by
    refine ⟨rfl, ⟨blank_nil, ?_, blank_nil, ?_, blank_nil, ?_, trivial⟩, blank_nil⟩
    all_goals exact Lexeme.stands_of_read_append rfl rfl
  have hparse : parse {} ['a', '%', 'a'] = .ok e := by
    rw [parse, hsplit.ofSource_eq]
    rfl
  have hvariable : ∀ t, ∃ t', (evaluate host (.identifier ['a'])).Returns t
      (.double (.infinite false)) t' := by
    intro t
    rw [evaluate_identifier]
    exact ⟨_, rfl⟩
  obtain ⟨t₁, hleft⟩ := hvariable []
  obtain ⟨t', hright⟩ := hvariable t₁
  have hfails : (evaluate host e).Fails [] .infiniteDividend t' :=
    fails_iff_raises.2 ⟨e, [], .here, .binary hleft rfl hright rfl⟩
  refine ⟨hparse, t', hfails, ?_⟩
  rcases evaluate_fails_as_evaluation hparse host [] with
    ⟨value, t₂, hreturns⟩ | ⟨failure, t₂, hfails', hfailure | hescapes⟩
  · cases hfails.symm.trans hreturns
  · cases hfails.symm.trans hfails'
    cases hfailure
  · cases hfails.symm.trans hfails'
    exact hescapes

/-- A function fails with what has no text.  What asking for the text fails with gets through, which
is no failure of the engine and none that comes from underneath. -/
theorem evaluate_fails_beyond_evaluation :
    let raised := Failure.host "ValueError".toList "integer with too many digits".toList
    let function : FunctionDefinition :=
      { name := ['f'], qualifier := none,
        implementation := fun _ _ => .error (.textless "KeyError".toList raised) }
    let host := Host.ofVariables [] (Registry.empty.register function)
    let e := Expr.call none ['f'] []
    parse {} ['f', '(', ')'] = .ok e ∧ (∃ t', (evaluate host e).Fails [] raised t') ∧
      raised.isEvaluation = false ∧ raised ≠ .infiniteDividend ∧ raised ≠ .unquotable ∧
      ∀ typeName, raised ≠ .textlessContainer typeName := by
  intro raised function host e
  have hsplit : Split ['f', '(', ')'] [⟨[], .identifier ['f'], ['f']⟩,
      ⟨[], .sign .leftParen ['('], ['(']⟩, ⟨[], .sign .rightParen [')'], [')']⟩] [] := by
    refine ⟨rfl, ⟨blank_nil, ?_, blank_nil, ?_, blank_nil, ?_, trivial⟩, blank_nil⟩
    all_goals exact Lexeme.stands_of_read_append rfl rfl
  have hparse : parse {} ['f', '(', ')'] = .ok e := by
    rw [parse, hsplit.ofSource_eq]
    rfl
  have hfails : ∃ t', (evaluate host e).Fails [] raised t' := by
    rw [evaluate_call]
    exact ⟨_, rfl⟩
  exact ⟨hparse, hfails, rfl, nofun, nofun, nofun⟩

end

end ExprLang
