import ExprLang.Eval.Access
import ExprLang.Eval.Operators

/-!
# Values without their hidden attributes

Attributes without a name or with a leading underscore are hidden.  A value is redacted when they
are taken out of all host objects in it.  Coercions, texts, equality and order do not see the
difference, and neither does an operator; what a look-up finds in the redacted value is what it
finds in the value, redacted.

* `Value.redacted` — the value without the hidden attributes of the objects in it.
* `Value.equal_redacted`, `Value.less?_redacted`, `Value.toText_redacted` — what does not see them.
* `UnaryOperator.apply_redacted`, `BinaryOperator.apply_redacted` — operators.
* `Value.access_redacted` — look-ups.
-/

namespace ExprLang

/-- Whether an attribute of that name is hidden. -/
def isHidden (name : Text) : Bool :=
  decide (name = [] ∨ name.head? = some '_')

/-- The object without what is known of its hidden attributes. -/
def HostObject.redacted (object : HostObject) : HostObject :=
  { object with failing := object.failing.filter fun entry => !isHidden entry.1 }

namespace Value

mutual

/-- The value without the hidden attributes of the host objects in it. -/
def redacted : Value → Value
  | .list items => .list (redactedItems items)
  | .tuple items => .tuple (redactedItems items)
  | .dict entries => .dict (redactedEntries entries)
  | .host object attributes => .host object.redacted (redactedAttributes attributes)
  | v => v

def redactedItems : List Value → List Value
  | [] => []
  | item :: items => redacted item :: redactedItems items

def redactedEntries : List (Value × Value) → List (Value × Value)
  | [] => []
  | (key, value) :: entries => (redacted key, redacted value) :: redactedEntries entries

def redactedAttributes : List (Text × Value) → List (Text × Value)
  | [] => []
  | (name, value) :: attributes =>
    if isHidden name then redactedAttributes attributes
    else (name, redacted value) :: redactedAttributes attributes

end

theorem redactedItems_eq (items : List Value) : redactedItems items = items.map redacted := by
  induction items with
  | nil => rfl
  | cons item items ih => rw [redactedItems, ih, List.map_cons]

theorem redactedEntries_eq (entries : List (Value × Value)) :
    redactedEntries entries = entries.map (Prod.map redacted redacted) := by
  induction entries with
  | nil => rfl
  | cons entry entries ih => rw [redactedEntries, ih, List.map_cons, Prod.map]

/-- What can be seen of the attributes is what the redacted ones hold. -/
theorem lookup_redactedAttributes {name : Text} (h : isHidden name = false)
    (attributes : List (Text × Value)) :
    (redactedAttributes attributes).lookup name = (attributes.lookup name).map redacted := by
  induction attributes with
  | nil => rfl
  | cons entry attributes ih =>
    obtain ⟨other, value⟩ := entry
    by_cases hname : name = other
    · subst hname
      simp [redactedAttributes, h]
    · have hne : (name == other) = false := beq_eq_false_iff_ne.2 hname
      cases hother : isHidden other <;> simp [redactedAttributes, List.lookup_cons, hne, hother, ih]

theorem lookup_filter_hidden {name : Text} (h : isHidden name = false)
    (failing : List (Text × Failure)) :
    (failing.filter fun entry => !isHidden entry.1).lookup name = failing.lookup name := by
  induction failing with
  | nil => rfl
  | cons entry failing ih =>
    obtain ⟨other, reason⟩ := entry
    by_cases hname : name = other
    · subst hname
      simp [h]
    · have hne : (name == other) = false := beq_eq_false_iff_ne.2 hname
      cases hother : isHidden other <;> simp [List.lookup_cons, hne, hother, ih]

/-! ## What does not see hidden attributes -/

section

variable (v w key object : Value)

@[simp]
theorem kind_redacted : v.redacted.kind = v.kind := by
  cases v <;> rfl

@[simp]
theorem typeName_redacted : v.redacted.typeName = v.typeName := by
  cases v <;> rfl

@[simp]
theorem isNumber_redacted : v.redacted.isNumber = v.isNumber := by
  cases v <;> rfl

@[simp]
theorem isNull_redacted : v.redacted.isNull = v.isNull := by
  cases v <;> rfl

@[simp]
theorem size?_redacted : v.redacted.size? = v.size? := by
  cases v <;> simp [redacted, size?, redactedItems_eq, redactedEntries_eq, HostObject.redacted]

@[simp]
theorem isFloating_redacted : v.redacted.isFloating = v.isFloating := by
  cases v <;> rfl

@[simp]
theorem toBoolean_redacted : v.redacted.toBoolean = v.toBoolean := by
  cases v <;> rfl

@[simp]
theorem toLong_redacted : v.redacted.toLong = v.toLong := by
  cases v <;> rfl

@[simp]
theorem toDouble_redacted : v.redacted.toDouble = v.toDouble := by
  cases v <;> rfl

@[simp]
theorem isString_redacted : v.redacted.isString = v.isString := by
  cases v <;> rfl

@[simp]
theorem isClean_redacted : v.redacted.isClean = v.isClean := by
  cases v <;> rfl

@[simp]
theorem isEmpty_redacted : v.redacted.isEmpty = v.isEmpty := by
  simp [isEmpty]

@[simp]
theorem negate_redacted : v.redacted.negate = v.negate := by
  cases v <;> rfl

end

/-! ### Texts -/

mutual

theorem quoted?_redacted : ∀ v : Value, v.redacted.quoted? = v.quoted?
  | .list items => by rw [redacted, quoted?, quoted?, quotedItems?_redacted items]
  | .tuple items => by rw [redacted, quoted?, quoted?, quotedItems?_redacted items]
  | .dict entries => by rw [redacted, quoted?, quoted?, quotedEntries?_redacted entries]
  | .host _ _ => rfl
  | .null | .boolean _ | .long _ | .double _ | .string _ | .bytes _ | .undefined => rfl

theorem quotedItems?_redacted : ∀ items : List Value,
    quotedItems? (redactedItems items) = quotedItems? items
  | [] => rfl
  | item :: items => by
    rw [redactedItems, quotedItems?, quotedItems?, quoted?_redacted item,
      quotedItems?_redacted items]

theorem quotedEntries?_redacted : ∀ entries : List (Value × Value),
    quotedEntries? (redactedEntries entries) = quotedEntries? entries
  | [] => rfl
  | (key, value) :: entries => by
    rw [redactedEntries, quotedEntries?, quotedEntries?, quoted?_redacted key,
      quoted?_redacted value, quotedEntries?_redacted entries]

end

/-- Null, booleans, numbers and texts hold no host object. -/
theorem redacted_of_ne_foreign {v : Value} (h : v.kind ≠ .foreign) : v.redacted = v := by
  cases v with
  | list | tuple | dict | host => exact absurd rfl h
  | _ => rfl

theorem quotedText_redacted (v : Value) : v.redacted.quotedText = v.quotedText := by
  rw [quotedText, quotedText, quoted?_redacted, typeName_redacted]

@[simp]
theorem toText_redacted (v : Value) : v.redacted.toText = v.toText := by
  cases v with
  | list | tuple | dict => exact quotedText_redacted _
  | host => rfl
  | bytes | undefined => rfl
  | _ => rw [redacted_of_ne_foreign (by simp [kind])]

/-! ### Equality, order and keys -/

mutual

theorem equal_redacted : ∀ v w : Value, v.redacted.equal w.redacted = v.equal w
  | .list xs, w => by
    cases w <;> simp [redacted, equal, equalItems_redacted xs, numeric?]
  | .tuple xs, w => by
    cases w <;> simp [redacted, equal, equalItems_redacted xs, numeric?]
  | .dict es, w => by
    cases w <;> simp [redacted, equal, redactedEntries_eq, entriesAmong_redacted es, numeric?]
  | .host _ _, w => by
    cases w <;> simp [redacted, equal, HostObject.redacted, numeric?]
  | .double (.nan none), w | .double (.nan (some _)), w | .double (.infinite _), w
  | .double (.finite _ _), w | .null, w | .boolean _, w | .long _, w | .string _, w
  | .bytes _, w | .undefined, w => by cases w <;> rfl

theorem equalItems_redacted : ∀ xs ys : List Value,
    equalItems (redactedItems xs) (redactedItems ys) = equalItems xs ys
  | [], [] => rfl
  | [], _ :: _ => rfl
  | _ :: _, [] => rfl
  | x :: xs, y :: ys => by
    rw [redactedItems, redactedItems, equalItems, equalItems, equal_redacted x y,
      equalItems_redacted xs ys]

theorem entriesAmong_redacted : ∀ es fs : List (Value × Value),
    entriesAmong (es.map (Prod.map redacted redacted)) (fs.map (Prod.map redacted redacted)) =
      entriesAmong es fs
  | [], _ => rfl
  | (key, value) :: es, fs => by
    have hfound : ∀ f : Value × Value,
        (key.redacted.equal f.1.redacted && value.redacted.equal f.2.redacted) =
          (key.equal f.1 && value.equal f.2) := fun f => by
      rw [equal_redacted key f.1, equal_redacted value f.2]
    simp [entriesAmong, entriesAmong_redacted es fs, Function.comp_def, hfound]

end

@[simp]
theorem isOrderedNumber_redacted (v : Value) : v.redacted.isOrderedNumber = v.isOrderedNumber := by
  cases v <;> rfl

@[simp]
theorem numeric?_redacted (v : Value) : v.redacted.numeric? = v.numeric? := by
  cases v <;> rfl

mutual

theorem less?_redacted : ∀ v w : Value, v.redacted.less? w.redacted = v.less? w
  | .list xs, w => by
    cases w <;> simp [redacted, less?, lessItems?_redacted xs, isOrderedNumber]
  | .tuple xs, w => by
    cases w <;> simp [redacted, less?, lessItems?_redacted xs, isOrderedNumber]
  | .dict _, w | .host _ _, w | .double _, w | .null, w | .boolean _, w | .long _, w
  | .string _, w | .bytes _, w | .undefined, w => by cases w <;> rfl

theorem lessItems?_redacted : ∀ xs ys : List Value,
    lessItems? (redactedItems xs) (redactedItems ys) = lessItems? xs ys
  | [], [] => rfl
  | [], _ :: _ => rfl
  | _ :: _, [] => rfl
  | x :: xs, y :: ys => by
    rw [redactedItems, redactedItems, lessItems?, lessItems?, equal_redacted, less?_redacted x y,
      lessItems?_redacted xs ys]

end

mutual

theorem isHashable_redacted : ∀ v : Value, v.redacted.isHashable = v.isHashable
  | .tuple items => by rw [redacted, isHashable, isHashable, allHashable_redacted items]
  | .list _ | .dict _ | .host _ _ | .double _ | .null | .boolean _ | .long _ | .string _
  | .bytes _ | .undefined => rfl

theorem allHashable_redacted : ∀ items : List Value,
    allHashable (redactedItems items) = allHashable items
  | [] => rfl
  | item :: items => by
    rw [redactedItems, allHashable, allHashable, isHashable_redacted item,
      allHashable_redacted items]

end

/-! ## Operators -/

section

variable (v w key object : Value)

theorem numericPair_redacted : numericPair v.redacted w.redacted = numericPair v w := by
  simp [numericPair]

theorem equals_redacted : v.redacted.equals w.redacted = v.equals w := by
  simp [equals, equalBooleans, equalTexts, numericPair_redacted, equal_redacted]

theorem order_redacted : v.redacted.order w.redacted = v.order w := by
  by_cases h : v.kind = .string ∧ w.kind = .string
  · rw [redacted_of_ne_foreign (by simp [h.1]), redacted_of_ne_foreign (by simp [h.2])]
  · rw [order_of_not_strings h, order_of_not_strings (by simpa using h)]
    simp only [kind_redacted, typeName_redacted, isNumber_redacted, numericPair_redacted,
      less?_redacted]

theorem compare_redacted (accepts : Ordering → Bool) :
    compare accepts v.redacted w.redacted = compare accepts v w := by
  simp [compare, order_redacted]

/-- A foreign value is neither a text nor a pattern. -/
theorem matchesPattern_of_foreign {v w : Value} (h : v.kind = .foreign ∨ w.kind = .foreign) :
    v.matchesPattern w = .error (.coercion (.wildcard v.typeName w.typeName)) := by
  unfold matchesPattern
  split
  case h_5 => rfl
  all_goals simp [kind] at h

theorem matchesPattern_redacted :
    v.redacted.matchesPattern w.redacted = v.matchesPattern w := by
  by_cases h : v.kind = .foreign ∨ w.kind = .foreign
  · rw [matchesPattern_of_foreign h, matchesPattern_of_foreign (by simpa using h)]
    simp only [typeName_redacted]
  · rw [not_or] at h
    rw [redacted_of_ne_foreign h.1, redacted_of_ne_foreign h.2]

theorem arithmetic_redacted (onLongs : Int → Int → Except Failure Int)
    (onDoubles : Double → Double → Except Failure Double) :
    arithmetic onLongs onDoubles v.redacted w.redacted = arithmetic onLongs onDoubles v w := by
  simp [arithmetic, numericPair_redacted]

theorem concatenate_redacted : v.redacted.concatenate w.redacted = v.concatenate w := by
  simp [concatenate]

theorem add_redacted : v.redacted.add w.redacted = v.add w := by
  simp [add, sum, concatenate_redacted, arithmetic_redacted]

theorem divide_redacted : v.redacted.divide w.redacted = v.divide w := by
  simp [divide]

end

end Value

theorem UnaryOperator.apply_redacted (operator : UnaryOperator) (v : Value) :
    operator.apply v.redacted = operator.apply v := by
  cases operator <;> simp [apply]

theorem BinaryOperator.apply_redacted (operator : BinaryOperator) (v w : Value) :
    operator.apply v.redacted w.redacted = operator.apply v w := by
  cases operator <;>
    simp [apply, Value.equals_redacted, Value.compare_redacted, Value.matchesPattern_redacted,
      Value.add_redacted, Value.difference, Value.product, Value.remainder,
      Value.arithmetic_redacted, Value.concatenate_redacted, Value.divide_redacted]

/-! ## Look-ups -/

namespace Value

theorem lookup?_redacted (key : Value) (entries : List (Value × Value)) :
    lookup? key.redacted (entries.map (Prod.map redacted redacted)) =
      (lookup? key entries).map redacted := by
  simp [lookup?, List.find?_map, Function.comp_def, equal_redacted]

section

variable (typeName : Text) (key object : Value)

theorem accessEntry_redacted (entries : List (Value × Value)) :
    accessEntry (entries.map (Prod.map redacted redacted)) key.redacted =
      (accessEntry entries key).map redacted := by
  unfold accessEntry
  rw [isHashable_redacted, quoted?_redacted, lookup?_redacted]
  split
  · cases lookup? key entries <;> rfl
  · split <;> rfl

theorem accessItem_redacted (items : List Value) :
    accessItem typeName (items.map redacted) key.redacted =
      (accessItem typeName items key).map redacted := by
  unfold accessItem
  rw [toLong_redacted, toText_redacted]
  split
  · rw [List.getElem?_map]
    rename_i index _
    split
    · cases items[index.toNat]? <;> rfl
    · rfl
  · split <;> rfl

theorem accessAttribute_redacted (object : HostObject) (attributes : List (Text × Value)) :
    accessAttribute typeName object.redacted.failing (redactedAttributes attributes) key.redacted =
      (accessAttribute typeName object.failing attributes key).map redacted := by
  unfold accessAttribute
  rw [toText_redacted]
  split
  · rfl
  · rename_i name _
    split
    · rfl
    · rename_i hvisible
      have hhidden : isHidden name = false := decide_eq_false hvisible
      rw [HostObject.redacted, lookup_filter_hidden hhidden, lookup_redactedAttributes hhidden]
      split
      · rfl
      · cases attributes.lookup name <;> rfl

theorem accessScalar_redacted :
    accessScalar typeName key.redacted = (accessScalar typeName key).map redacted := by
  unfold accessScalar
  rw [toText_redacted]
  split <;> rfl

/-- **A look-up does not see hidden attributes.**  What it finds in a redacted value under a
redacted key is what it finds in the value under the key, redacted. -/
theorem access_redacted :
    object.redacted.access key.redacted = (object.access key).map redacted := by
  cases object with
  | null => rfl
  | boolean | long | double => exact accessScalar_redacted _ key
  | dict entries =>
    rw [redacted, redactedEntries_eq]
    exact accessEntry_redacted key entries
  | string text =>
    have hitems := accessItem_redacted "string".toList key (text.map fun c => .string [c])
    rwa [List.map_map] at hitems
  | list items | tuple items =>
    rw [redacted, redactedItems_eq]
    exact accessItem_redacted _ key items
  | bytes content =>
    have hitems := accessItem_redacted "bytes".toList key (content.map ofByte)
    rwa [List.map_map] at hitems
  | host object attributes => exact accessAttribute_redacted object.typeName key object attributes
  | undefined =>
    exact accessAttribute_redacted "_Undefined".toList key ⟨0, [], [], [], none, []⟩ []

end

end Value

end ExprLang
