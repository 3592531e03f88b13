import ExprLang.Host.Registry

/-!
# Hosts made of variables and a registry

* `Variables.lookup_set_self`, `Variables.lookup_set_of_ne` — variables are a map of their names.
-/

namespace ExprLang

/-- Names with their values; the first entry of a name counts. -/
abbrev Variables := List (Text × Value)

namespace Variables

/-- The variables with `name` defined or replaced. -/
def set (name : Text) (value : Value) : Variables → Variables
  | [] => [(name, value)]
  | entry :: entries =>
    if entry.1 = name then (name, value) :: entries else entry :: set name value entries

def value? (known : Variables) (name : Text) : Option Value :=
  (known.find? fun entry => entry.1 = name).map (·.2)

theorem lookup_set_self (known : Variables) (name : Text) (value : Value) :
    value? (set name value known) name = some value := by
  induction known with
  | nil => simp [set, value?]
  | cons entry entries ih =>
    unfold set
    split
    · simp [value?]
    · rename_i h
      rw [value?, List.find?_cons_of_neg (by simpa using h)]
      exact ih

theorem lookup_set_of_ne (known : Variables) {name other : Text} (h : other ≠ name)
    (value : Value) : value? (set name value known) other = value? known other := by
  have hne : ¬ name = other := fun e => h e.symm
  induction known with
  | nil => simp [set, value?, hne]
  | cons entry entries ih =>
    unfold set
    split
    · rename_i heq
      simp [value?, heq, hne]
    · simp only [value?, List.find?_cons] at ih ⊢
      split
      · rfl
      · exact ih

theorem value?_append (known known' : Variables) (name : Text) :
    value? (known ++ known') name = (value? known name).or (value? known' name) := by
  rw [value?, List.find?_append, Option.map_or]
  rfl

end Variables

/-- The host without a memory that knows these variables and functions. -/
def Host.ofVariables (known : Variables) (registry : Registry) : Host where
  resolveVariable _ name := .ok ((known.value? name).getD .undefined)
  resolveFunction _ qualifier name := .ok (registry.lookup? qualifier name)

/-- A host does not tell apart variables with the same values. -/
theorem Host.ofVariables_congr {known known' : Variables}
    (h : ∀ name, known.value? name = known'.value? name) (registry : Registry) :
    Host.ofVariables known registry = Host.ofVariables known' registry := by
  unfold Host.ofVariables
  simp only [h]

end ExprLang
