import ExprLang.Host.Basic

/-!
# Function registries

A registry holds function definitions, at most one for each qualifier and name, in the order in
which the names were first registered.  A function without a qualifier differs from one with an
empty qualifier.

* `Registry.register` keeps the place of a name that is registered again.
* `FunctionMetadata` — what is said about a function beside its name.
-/

namespace ExprLang

inductive FunctionCategory where
  | string
  | collection
  | markup
  | other
  deriving DecidableEq, Repr

namespace FunctionCategory

def all : List FunctionCategory := [.string, .collection, .markup, .other]

def name : FunctionCategory → Text
  | .string => "string".toList
  | .collection => "collection".toList
  | .markup => "markup".toList
  | .other => "other".toList

def ofName? (name : Text) : Option FunctionCategory :=
  all.find? fun category => category.name = name

theorem ofName?_name (category : FunctionCategory) : ofName? category.name = some category := by
  cases category <;> decide

end FunctionCategory

/-- A parameter as the documentation shows it. -/
structure FunctionParameter where
  name : Text
  type : Text
  description : Text := []
  deriving DecidableEq, Repr

structure FunctionDefinition where
  name : Text
  qualifier : Option Text
  implementation : HostFunction
  description : Text := []
  category : FunctionCategory := .other
  parameters : List FunctionParameter := []
  returnType : Text := "any".toList
  examples : List Text := []

/-- What may be said about a function where it is defined, its names apart. -/
structure FunctionMetadata where
  description : Text := []
  category : FunctionCategory := .other
  parameters : List FunctionParameter := []
  returnType : Text := "any".toList
  examples : List Text := []

/-- The definition of a function with its metadata. -/
def FunctionMetadata.define (metadata : FunctionMetadata) (name : Text) (qualifier : Option Text)
    (implementation : HostFunction) : FunctionDefinition where
  name := name
  qualifier := qualifier
  implementation := implementation
  description := metadata.description
  category := metadata.category
  parameters := metadata.parameters
  returnType := metadata.returnType
  examples := metadata.examples

/-- There is no function of this qualifier and name. -/
structure UnknownFunction where
  qualifier : Option Text
  name : Text
  deriving DecidableEq, Repr

def UnknownFunction.message (error : UnknownFunction) : Text :=
  "Unknown function: ".toList ++ qualifiedName error.qualifier error.name

namespace FunctionDefinition

/-- What a definition is registered under. -/
abbrev Key := Option Text × Text

def key (definition : FunctionDefinition) : Key :=
  (definition.qualifier, definition.name)

def qualifiedName (definition : FunctionDefinition) : Text :=
  ExprLang.qualifiedName definition.qualifier definition.name

/-- The definitions with `definition` in the place of the one with its key, or else at the end. -/
def place (definition : FunctionDefinition) : List FunctionDefinition → List FunctionDefinition
  | [] => [definition]
  | first :: others =>
    if first.key = definition.key then definition :: others
    else first :: place definition others

theorem map_key_place (definition : FunctionDefinition) (definitions : List FunctionDefinition) :
    (definition.place definitions).map key =
      if definition.key ∈ definitions.map key then definitions.map key
      else definitions.map key ++ [definition.key] := by
  induction definitions with
  | nil => simp [place]
  | cons first others ih =>
    by_cases h : first.key = definition.key
    · simp [place, h]
    · have h' : ¬ definition.key = first.key := fun e => h e.symm
      simp only [place, h, if_false, List.map_cons, ih, List.mem_cons, h', false_or]
      split <;> simp

theorem mem_of_mem_place {definition other : FunctionDefinition}
    {definitions : List FunctionDefinition} (h : other ∈ definition.place definitions) :
    other = definition ∨ other ∈ definitions := by
  induction definitions with
  | nil => exact .inl (List.mem_singleton.1 h)
  | cons first others ih =>
    unfold place at h
    split at h
    · exact (List.mem_cons.1 h).imp_right (List.mem_cons_of_mem first)
    · rcases List.mem_cons.1 h with rfl | h
      · exact .inr List.mem_cons_self
      · exact (ih h).imp_right (List.mem_cons_of_mem first)

end FunctionDefinition

structure Registry where
  definitions : List FunctionDefinition
  nodup_keys : (definitions.map FunctionDefinition.key).Nodup

namespace Registry

def empty : Registry := ⟨[], List.nodup_nil⟩

def register (registry : Registry) (definition : FunctionDefinition) : Registry where
  definitions := definition.place registry.definitions
  nodup_keys := by
    rw [FunctionDefinition.map_key_place]
    split
    · exact registry.nodup_keys
    · rename_i h
      refine List.nodup_append.2 ⟨registry.nodup_keys, by simp, ?_⟩
      intro a ha b hb hab
      rw [List.mem_singleton.1 hb] at hab
      exact h (hab ▸ ha)

def registerAll (registry : Registry) (definitions : List FunctionDefinition) : Registry :=
  definitions.foldl register registry

/-- With a function of which no more than a description is known. -/
def registerCallable (registry : Registry) (name : Text) (implementation : HostFunction)
    (qualifier : Option Text) (description : Text) : Registry :=
  registry.register { name, implementation, qualifier, description }

/-- The function that a decorator has been put on, as it was, and the registry with it. -/
def decorate (registry : Registry) (name : Text) (qualifier : Option Text)
    (metadata : FunctionMetadata) (implementation : HostFunction) : HostFunction × Registry :=
  (implementation, registry.register (metadata.define name qualifier implementation))

/-- Nothing stays registered. -/
def clear (_ : Registry) : Registry :=
  empty

/-- The definition of a qualifier and a name. -/
def find? (registry : Registry) (qualifier : Option Text) (name : Text) :
    Option FunctionDefinition :=
  registry.definitions.find? fun definition => definition.key = (qualifier, name)

/-- The definition of a qualifier and a name, which has to be there. -/
def get (registry : Registry) (qualifier : Option Text) (name : Text) :
    Except UnknownFunction FunctionDefinition :=
  match registry.find? qualifier name with
  | some definition => .ok definition
  | none => .error ⟨qualifier, name⟩

def lookup? (registry : Registry) (qualifier : Option Text) (name : Text) : Option HostFunction :=
  (registry.find? qualifier name).map (·.implementation)

def contains (registry : Registry) (qualifier : Option Text) (name : Text) : Bool :=
  registry.definitions.any fun definition => definition.key = (qualifier, name)

def size (registry : Registry) : Nat :=
  registry.definitions.length

def inCategory (registry : Registry) (category : FunctionCategory) : List FunctionDefinition :=
  registry.definitions.filter (·.category = category)

theorem mem_of_mem_registerAll {registry : Registry}
    {definitions : List FunctionDefinition} {definition : FunctionDefinition}
    (h : definition ∈ (registry.registerAll definitions).definitions) :
    definition ∈ definitions ∨ definition ∈ registry.definitions := by
  induction definitions generalizing registry with
  | nil => exact .inr h
  | cons first others ih =>
    rcases ih h with h | h
    · exact .inl (List.mem_cons_of_mem first h)
    · rcases FunctionDefinition.mem_of_mem_place h with rfl | h
      · exact .inl List.mem_cons_self
      · exact .inr h

end Registry

end ExprLang
