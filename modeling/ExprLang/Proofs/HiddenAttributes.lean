import ExprLang.Host.Variables
import ExprLang.Library.Basic
import ExprLang.Proofs.PairedRuns
import ExprLang.Proofs.Redaction

/-!
# Hidden attributes cannot be read

Two hosts that differ in the hidden attributes of their objects only, be it in what they hold, in
whether they are there or in whether they can be read, cannot be told apart by any expression.  Its
evaluation comes to the same value, up to such attributes, or to the same failure, and it exchanges
the same with the host.  A host may have a memory, and its functions may do anything but read these
attributes themselves; those of the library do not.

* `Value.Alike`, `Trace.Alike`, `Host.Alike` — a difference in hidden attributes only.
* `Value.congruence_alike` — operators and look-ups do not read hidden attributes.
* `evaluate_alike` — evaluations against alike hosts.
* `Host.alike_ofVariables`, `Library.alike_functions`, `Host.alike_builtin` — hosts made of
  variables and the library.
-/

namespace ExprLang

open Evaluation

/-! ## What differs in hidden attributes only -/

/-- The two values differ in hidden attributes only. -/
def Value.Alike (v w : Value) : Prop :=
  v.redacted = w.redacted

theorem Value.Alike.refl (v : Value) : Value.Alike v v :=
  rfl

/-- The exchange without the hidden attributes of the values in it. -/
def Event.redacted : Event → Event
  | .variableLookup name answer => .variableLookup name (answer.map Value.redacted)
  | .functionLookup qualifier name found => .functionLookup qualifier name found
  | .call qualifier name arguments outcome =>
    .call qualifier name (arguments.map Value.redacted) (outcome.map Value.redacted)

/-- The two traces differ in hidden attributes only: they hold the same look-ups and the same calls
in the same order. -/
def Trace.Alike (t t' : Trace) : Prop :=
  t.map Event.redacted = t'.map Event.redacted

/-- Two functions that do not read hidden attributes: from alike pasts and on alike arguments their
outcomes correspond. -/
def HostFunction.Alike (f g : HostFunction) : Prop :=
  ∀ ⦃t t' : Trace⦄ ⦃arguments arguments' : List Value⦄, Trace.Alike t t' →
    arguments.map Value.redacted = arguments'.map Value.redacted →
    Outcomes Value.Alike (f t arguments) (g t' arguments')

/-- Two hosts that differ in hidden attributes only: from alike pasts they answer alike. -/
structure Host.Alike (host host' : Host) : Prop where
  ofVariable : ∀ ⦃t t' : Trace⦄ (name : Text), Trace.Alike t t' →
    Outcomes Value.Alike (host.resolveVariable t name) (host'.resolveVariable t' name)
  ofFunction : ∀ ⦃t t' : Trace⦄ (qualifier : Option Text) (name : Text), Trace.Alike t t' →
    Outcomes (Option.Rel HostFunction.Alike) (host.resolveFunction t qualifier name)
      (host'.resolveFunction t' qualifier name)

namespace Outcomes

theorem of_map_redacted {result result' : Except Failure Value}
    (h : result.map Value.redacted = result'.map Value.redacted) :
    Outcomes Value.Alike result result' := by
  cases result with
  | error failure =>
    cases result' with
    | error failure' =>
      cases h
      exact .error failure
    | ok w => cases h
  | ok v =>
    cases result' with
    | error failure' => cases h
    | ok w => exact .ok (Except.ok.inj h)

theorem map_redacted {result result' : Except Failure Value}
    (h : Outcomes Value.Alike result result') :
    result.map Value.redacted = result'.map Value.redacted := by
  cases h with
  | ok halike => exact congrArg Except.ok halike
  | error => rfl

end Outcomes

/-! ## Hosts -/

section

variable {host host' : Host}

theorem Value.Alike.undefined_iff {v w : Value} (h : Value.Alike v w) :
    v = .undefined ↔ w = .undefined := by
  have hredacted : ∀ u : Value, u = .undefined ↔ u.redacted = .undefined := by
    intro u
    cases u <;> simp [Value.redacted]
  rw [hredacted v, hredacted w, h]

theorem related_askVariable (h : host.Alike host') (name : Text) :
    Related Trace.Alike Value.Alike (host.askVariable name) (host'.askVariable name) := by
  refine .bind .trace fun t t' htrace => ?_
  have hanswer := h.ofVariable name htrace
  have hevent := congrArg (Event.variableLookup name) hanswer.map_redacted
  refine .bind (.record hevent) fun _ _ _ => ?_
  generalize host.resolveVariable t name = answer at hanswer ⊢
  generalize host'.resolveVariable t' name = answer' at hanswer ⊢
  cases hanswer with
  | @ok v w halike =>
    split
    · rename_i hv
      cases hv
      cases halike.undefined_iff.1 rfl
      exact .pure rfl
    · rename_i hv hdefined
      cases hdefined
      split
      · rename_i hw
        cases hw
        exact (hv (halike.undefined_iff.2 rfl)).elim
      · rename_i hdefined
        cases hdefined
        exact .pure halike
      · rename_i hfailed
        cases hfailed
    · rename_i hfailed
      cases hfailed
  | error failure => exact .throw _

theorem related_askFunction (h : host.Alike host') (qualifier : Option Text) (name : Text) :
    Related Trace.Alike HostFunction.Alike (host.askFunction qualifier name)
      (host'.askFunction qualifier name) := by
  refine .bind .trace fun t t' htrace => ?_
  have hanswer := h.ofFunction qualifier name htrace
  generalize host.resolveFunction t qualifier name = answer at hanswer ⊢
  generalize host'.resolveFunction t' qualifier name = answer' at hanswer ⊢
  cases hanswer with
  | ok hfound =>
    cases hfound with
    | some halike => exact .bind (.record rfl) fun _ _ _ => .pure halike
    | none => exact .bind (.record rfl) fun _ _ _ => .throw _
  | error failure => exact .bind (.record rfl) fun _ _ _ => .throw _

theorem related_call {f g : HostFunction} (h : f.Alike g) (qualifier : Option Text) (name : Text)
    {arguments arguments' : List Value}
    (harguments : arguments.map Value.redacted = arguments'.map Value.redacted) :
    Related Trace.Alike Value.Alike (Host.call qualifier name f arguments)
      (Host.call qualifier name g arguments') := by
  refine .bind .trace fun t t' htrace => ?_
  have houtcome := h htrace harguments
  have hevent : (Event.call qualifier name arguments (f t arguments)).redacted =
      (Event.call qualifier name arguments' (g t' arguments')).redacted := by
    rw [Event.redacted, Event.redacted, harguments, houtcome.map_redacted]
  refine .bind (.record hevent) fun _ _ _ => ?_
  generalize f t arguments = outcome at houtcome ⊢
  generalize g t' arguments' = outcome' at houtcome ⊢
  cases houtcome with
  | ok halike => exact .pure halike
  | error failure => exact .throw _

/-! ## Nodes -/

theorem outcomes_unary (operator : UnaryOperator) {v w : Value} (h : Value.Alike v w) :
    Outcomes Value.Alike (operator.apply v) (operator.apply w) := by
  rw [← operator.apply_redacted v, ← operator.apply_redacted w, h]
  exact .refl Value.Alike.refl _

theorem outcomes_binary (operator : BinaryOperator) {v v' w w' : Value} (h : Value.Alike v v')
    (h' : Value.Alike w w') : Outcomes Value.Alike (operator.apply v w) (operator.apply v' w') := by
  rw [← operator.apply_redacted v w, ← operator.apply_redacted v' w', h, h']
  exact .refl Value.Alike.refl _

theorem outcomes_access {object object' key key' : Value} (h : Value.Alike object object')
    (h' : Value.Alike key key') :
    Outcomes Value.Alike (object.access key) (object'.access key') := by
  refine .of_map_redacted ?_
  rw [← Value.access_redacted, ← Value.access_redacted, h, h']

theorem Value.Alike.toBoolean_eq {v w : Value} (h : Value.Alike v w) :
    v.toBoolean = w.toBoolean := by
  rw [← toBoolean_redacted v, ← toBoolean_redacted w, h]

theorem Value.Alike.isNull_eq {v w : Value} (h : Value.Alike v w) : v.isNull = w.isNull := by
  rw [← isNull_redacted v, ← isNull_redacted w, h]

/-- Operators and look-ups do not read hidden attributes. -/
theorem Value.congruence_alike : Value.Congruence Value.Alike where
  refl := Value.Alike.refl
  isNull := Value.Alike.isNull_eq
  toBoolean := Value.Alike.toBoolean_eq
  unary operator _ _ h := outcomes_unary operator h
  binary operator _ _ _ _ h h' := outcomes_binary operator h h'
  access h h' := outcomes_access h h'

theorem map_redacted_eq {vs ws : List Value} (h : List.Forall₂ Value.Alike vs ws) :
    vs.map Value.redacted = ws.map Value.redacted := by
  rw [← List.forall₂_eq_eq_eq, List.forall₂_map_left_iff, List.forall₂_map_right_iff]
  exact h

/-- The evaluations of a tree against alike hosts agree. -/
theorem agree_evaluate (h : host.Alike host') (e : Expr) :
    Related Trace.Alike Value.Alike (evaluate host e) (evaluate host' e) :=
  related_evaluate Value.congruence_alike (fun name _ => related_askVariable h name)
    (related_askFunction h) fun qualifier name _ _ _ _ hfg hvws =>
      related_call hfg qualifier name (map_redacted_eq hvws)

/-! ## Variables and the library -/

/-- The two sets of variables have the same names, with alike values. -/
def Variables.Alike (known known' : Variables) : Prop :=
  known.map (Prod.map id Value.redacted) = known'.map (Prod.map id Value.redacted)

theorem value?_redacted (known : Variables) (name : Text) :
    Variables.value? (known.map (Prod.map id Value.redacted)) name =
      (known.value? name).map Value.redacted := by
  simp [Variables.value?, List.find?_map, Function.comp_def]

theorem Host.alike_ofVariables {known known' : Variables} {registry : Registry}
    (h : Variables.Alike known known')
    (hfunctions : ∀ definition ∈ registry.definitions,
      HostFunction.Alike definition.implementation definition.implementation) :
    (Host.ofVariables known registry).Alike (Host.ofVariables known' registry) where
  ofVariable t t' name _ := by
    have hvalue := congrArg (Variables.value? · name) h
    simp only [value?_redacted] at hvalue
    refine .ok ?_
    cases hknown : known.value? name with
    | none =>
      rw [hknown] at hvalue
      rw [Option.map_eq_none_iff.1 hvalue.symm]
      exact .refl _
    | some v =>
      rw [hknown] at hvalue
      obtain ⟨w, hw, hvw⟩ := Option.map_eq_some_iff.1 hvalue.symm
      rw [hw]
      exact hvw.symm
  ofFunction t t' qualifier name _ := by
    refine .ok ?_
    show Option.Rel _ ((registry.find? qualifier name).map _)
      ((registry.find? qualifier name).map _)
    cases hfound : registry.find? qualifier name with
    | none => exact .none
    | some definition => exact .some (hfunctions definition (List.mem_of_find?_eq_some hfound))

namespace Library

/-- The function does not see the hidden attributes of its arguments. -/
def IsBlind (f : List Value → Except Failure Value) : Prop :=
  ∀ arguments, f (arguments.map Value.redacted) = f arguments

theorem IsBlind.alike {f : List Value → Except Failure Value} (h : IsBlind f) :
    HostFunction.Alike (.pure f) (.pure f) := by
  intro t t' arguments arguments' _ harguments
  have hsame : f arguments = f arguments' := by rw [← h arguments, harguments, h]
  show Outcomes Value.Alike (f arguments) (f arguments')
  rw [hsame]
  exact .refl Value.Alike.refl _

theorem isBlind_ofOne {f : Value → Except Failure Value} (h : ∀ v, f v.redacted = f v)
    (name : Text) : IsBlind (ofOne f name)
  | [] => rfl
  | [v] => h v
  | _ :: _ :: _ => by simp [ofOne]

theorem isBlind_ofTwo {f : Value → Value → Except Failure Value}
    (h : ∀ v w, f v.redacted w.redacted = f v w) (name : Text) : IsBlind (ofTwo f name)
  | [] | [_] => rfl
  | [v, w] => h v w
  | _ :: _ :: _ :: _ => by simp [ofTwo]

theorem isBlind_ofThree {f : Value → Value → Value → Except Failure Value}
    (h : ∀ u v w, f u.redacted v.redacted w.redacted = f u v w) (name : Text) :
    IsBlind (ofThree f name)
  | [] | [_] | [_, _] => rfl
  | [u, v, w] => h u v w
  | _ :: _ :: _ :: _ :: _ => by simp [ofThree]

section

variable (v w : Value)

theorem ofText_redacted (f : Text → Text) : ofText f v.redacted = ofText f v := by
  simp [ofText]

theorem ofTexts_redacted (f : Text → Text → Value) :
    ofTexts f v.redacted w.redacted = ofTexts f v w := by
  simp [ofTexts]

theorem ofTextsReversed_redacted (f : Text → Text → Value) :
    ofTextsReversed f v.redacted w.redacted = ofTextsReversed f v w := by
  simp [ofTextsReversed]

theorem itemTexts_redacted (items : List Value) :
    itemTexts (items.map Value.redacted) = itemTexts items := by
  induction items with
  | nil => rfl
  | cons item items ih => rw [List.map_cons, itemTexts, itemTexts, Value.toText_redacted, ih]

theorem items?_redacted : v.redacted.items? = v.items?.map (·.map Value.redacted) := by
  cases v <;> simp [Value.redacted, Value.items?, Value.redactedItems_eq, Value.redactedEntries_eq,
    Value.ofByte, Function.comp_def]

/-- Joining the items of a value that is no text and not null. -/
theorem join_of_foreign {v : Value} (h : v.kind = .foreign) (w : Value) : join v w = (do
    let separator ← w.toText
    match v.items? with
    | none => throw (.noItems v.typeName)
    | some items => return .string (Text.joinWith separator (← itemTexts items))) := by
  cases v with
  | null | boolean | long | double | string => cases h
  | _ => rfl

theorem join_redacted : join v.redacted w.redacted = join v w := by
  by_cases h : v.kind = .foreign
  · rw [join_of_foreign h, join_of_foreign ((Value.kind_redacted v).trans h), items?_redacted]
    cases v.items? <;> simp [itemTexts_redacted]
  · rw [Value.redacted_of_ne_foreign h]
    simp [join]

theorem length_redacted : length v.redacted = length v := by
  simp [length]

theorem split_redacted : split v.redacted w.redacted = split v w := by
  simp [split]

theorem replace_redacted (u : Value) :
    replace u.redacted v.redacted w.redacted = replace u v w := by
  simp [replace]

theorem substring_redacted (u : Value) :
    substring u.redacted v.redacted w.redacted = substring u v w := by
  simp [substring]

end

/-- The functions of the library do not read hidden attributes. -/
theorem alike_functions (qualifier : Option Text) : ∀ definition ∈ functions qualifier,
    HostFunction.Alike definition.implementation definition.implementation := by
  have htexts := fun f name => (isBlind_ofTwo (fun v w => ofTexts_redacted v w f) name).alike
  have hreversed := fun f name =>
    (isBlind_ofTwo (fun v w => ofTextsReversed_redacted v w f) name).alike
  have htext := fun f name => (isBlind_ofOne (fun v => ofText_redacted v f) name).alike
  have hreplace := fun name => (isBlind_ofThree (fun u v w => replace_redacted v w u) name).alike
  have hsubstring := fun name =>
    (isBlind_ofThree (fun u v w => substring_redacted v w u) name).alike
  have hjoin := fun name => (isBlind_ofTwo join_redacted name).alike
  have hlength := fun name => (isBlind_ofOne length_redacted name).alike
  have hsplit := fun name => (isBlind_ofTwo split_redacted name).alike
  simp only [functions, textFunctions, collectionFunctions, markupFunctions, define,
    List.forall_mem_append, List.forall_mem_cons, List.not_mem_nil, false_imp_iff, implies_true,
    and_true]
  exact ⟨⟨⟨hreversed _ _, hreversed _ _, htexts _ _, htexts _ _, htexts _ _, hreplace _,
    htexts _ _, htexts _ _, htext _ _, htext _ _, htext _ _, hsubstring _⟩, hjoin _, hlength _,
    hsplit _⟩, htext _ _⟩

end Library

/-- Hosts made of alike variables and the library differ in hidden attributes only. -/
theorem Host.alike_builtin {known known' : Variables} (h : Variables.Alike known known') :
    (Host.ofVariables known .builtin).Alike (Host.ofVariables known' .builtin) := by
  refine Host.alike_ofVariables h fun definition hdefinition => ?_
  exact Library.alike_functions _ definition (Registry.mem_functions_of_mem_builtin hdefinition)

/-- **Hidden attributes cannot be read.**  Against two hosts that differ in hidden attributes only,
whatever a tree does and however it makes up the names of members, its evaluations come to the same
value up to hidden attributes or to the same failure, after the same look-ups and calls. -/
theorem evaluate_alike (h : host.Alike host') (e : Expr) {t t' : Trace} (ht : Trace.Alike t t') :
    Outcomes Value.Alike ((evaluate host e).run t).1 ((evaluate host' e).run t').1 ∧
      Trace.Alike ((evaluate host e).run t).2 ((evaluate host' e).run t').2 :=
  agree_evaluate h e ht

/-- The token of a user is there and can be read, or cannot be read: no way to ask for it, be it by
a name or by a text that is put together, tells the one from the other. -/
theorem evaluate_alike_token :
    let user : HostObject := ⟨0, "User".toList, "<User>".toList, "<User>".toList, none, []⟩
    let known : Variables := [("user".toList,
      .host user [("name".toList, .string "Ann".toList), ("_token".toList, .long 7)])]
    let known' : Variables := [("user".toList, .host
      { user with failing := [("_token".toList, .host "Locked".toList "locked".toList)] }
      [("name".toList, .string "Ann".toList)])]
    let e := Expr.binary .add
      (.call (some "fn".toList) "length".toList [.member (.identifier "user".toList) "name".toList])
      (.index (.identifier "user".toList)
        (.binary .join (.literal (.string ['_'])) (.literal (.string "token".toList))))
    (Host.ofVariables known .builtin).Alike (Host.ofVariables known' .builtin) ∧
      Outcomes Value.Alike ((evaluate (.ofVariables known .builtin) e).run []).1
        ((evaluate (.ofVariables known' .builtin) e).run []).1 ∧
      Trace.Alike ((evaluate (.ofVariables known .builtin) e).run []).2
        ((evaluate (.ofVariables known' .builtin) e).run []).2 := by
  intro user known known' e
  have hhosts : (Host.ofVariables known .builtin).Alike (Host.ofVariables known' .builtin) :=
    Host.alike_builtin rfl
  exact ⟨hhosts, evaluate_alike hhosts e rfl⟩

end

end ExprLang
