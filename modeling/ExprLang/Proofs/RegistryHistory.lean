import ExprLang.Host.Documentation
import ExprLang.Host.RegistryStep
import Mathlib.Data.Finset.Card
import Mathlib.Data.List.DropRight

/-!
# A registry is a map with an order

What a registry shows after any sequence of steps is told by the definitions that have been
registered since it was last cleared, and by nothing else: of those with one key the last one
counts, and it stands where the first one was put.

* `registeredSinceClear` — these definitions, read off the steps.
* `Registry.Shows` — the definitions of a registry and their order.
* `Shows.register` — one definition more; `shows_ofHistory` — a whole history.
* `byCategory_eq` — the groups that are put together in one pass are those of the categories.
* `Registry.Reflects`, `reflects_ofHistory` — everything that can be asked of a registry.
-/

namespace ExprLang

/-! ## What a history says -/

namespace RegistryStep

/-- The definitions that a step registers, in order. -/
def registered : RegistryStep → List FunctionDefinition
  | .register definition => [definition]
  | .registerCallable name implementation qualifier description =>
    [{ name, implementation, qualifier, description }]
  | .decorate name qualifier metadata implementation =>
    [metadata.define name qualifier implementation]
  | .addLibrary qualifier => Library.functions qualifier
  | .clear => []

def isClear : RegistryStep → Bool
  | .clear => true
  | _ => false

end RegistryStep

/-- The definitions registered behind the last step that cleared the registry, earliest first. -/
def registeredSinceClear (steps : List RegistryStep) : List FunctionDefinition :=
  (steps.rtakeWhile (!·.isClear)).flatMap (·.registered)

namespace FunctionDefinition

/-- The last one of the definitions with a key. -/
def last? (key : Key) (definitions : List FunctionDefinition) : Option FunctionDefinition :=
  (definitions.filter (·.key = key)).getLast?

/-- The number of definitions in front of the first one with a key. -/
def firstPlace (key : Key) (definitions : List FunctionDefinition) : Nat :=
  (definitions.map FunctionDefinition.key).idxOf key

variable {definition d : FunctionDefinition} {definitions : List FunctionDefinition} {key : Key}

theorem last?_concat (key : Key) (definitions : List FunctionDefinition)
    (definition : FunctionDefinition) :
    last? key (definitions ++ [definition]) =
      if definition.key = key then some definition else last? key definitions := by
  unfold last?
  by_cases h : definition.key = key
  · simp [h]
  · simp [h]

theorem last?_eq_some (h : last? key definitions = some definition) :
    definition ∈ definitions ∧ definition.key = key := by
  have hmem := List.mem_of_getLast? h
  simpa using hmem

theorem last?_eq_none_iff :
    last? key definitions = none ↔ key ∉ definitions.map FunctionDefinition.key := by
  unfold last?
  rw [List.getLast?_eq_none_iff, List.filter_eq_nil_iff]
  simp

theorem firstPlace_concat_of_mem (h : key ∈ definitions.map FunctionDefinition.key)
    (definition : FunctionDefinition) :
    firstPlace key (definitions ++ [definition]) = firstPlace key definitions := by
  rw [firstPlace, List.map_append, List.idxOf_append_of_mem h]
  rfl

theorem firstPlace_lt (h : key ∈ definitions.map FunctionDefinition.key) :
    firstPlace key definitions < definitions.length := by
  have hlt := List.idxOf_lt_length_iff.2 h
  rwa [List.length_map] at hlt

theorem firstPlace_concat_self (h : definition.key ∉ definitions.map FunctionDefinition.key) :
    firstPlace definition.key (definitions ++ [definition]) = definitions.length := by
  rw [firstPlace, List.map_append, List.idxOf_append_of_notMem h]
  simp

/-- A definition takes the place of the one with its key, and all others stay. -/
theorem mem_place_iff (h : (definitions.map FunctionDefinition.key).Nodup) :
    d ∈ definition.place definitions ↔ d = definition ∨ d ∈ definitions ∧ d.key ≠ definition.key := by
  induction definitions with
  | nil => simp [place]
  | cons first others ih =>
    obtain ⟨hfirst, hothers⟩ := List.nodup_cons.1 h
    unfold place
    split
    · rename_i hkey
      have hrest : ∀ e ∈ others, e.key ≠ definition.key := by
        intro e he heq
        exact hfirst (List.mem_map.2 ⟨e, he, heq.trans hkey.symm⟩)
      constructor
      · intro hd
        rcases List.mem_cons.1 hd with rfl | hd
        · exact .inl rfl
        · exact .inr ⟨List.mem_cons_of_mem first hd, hrest d hd⟩
      · rintro (rfl | ⟨hd, hne⟩)
        · exact List.mem_cons_self
        · rcases List.mem_cons.1 hd with rfl | hd
          · exact absurd hkey hne
          · exact List.mem_cons_of_mem definition hd
    · rename_i hkey
      rw [List.mem_cons, ih hothers, List.mem_cons]
      constructor
      · rintro (rfl | hd | ⟨hd, hne⟩)
        · exact .inr ⟨.inl rfl, hkey⟩
        · exact .inl hd
        · exact .inr ⟨.inr hd, hne⟩
      · rintro (hd | ⟨rfl | hd, hne⟩)
        · exact .inr (.inl hd)
        · exact .inl rfl
        · exact .inr (.inr ⟨hd, hne⟩)

end FunctionDefinition

open FunctionDefinition

/-! ## Definitions in the order of their keys -/

namespace Registry

/-- The registry has the last definition of each key, in the order of the first ones. -/
structure Shows (registry : Registry) (registered : List FunctionDefinition) : Prop where
  mem_iff : ∀ d, d ∈ registry.definitions ↔ last? d.key registered = some d
  ordered : (registry.definitions.map FunctionDefinition.key).Pairwise fun key key' =>
    firstPlace key registered < firstPlace key' registered

variable {registry : Registry} {registered definitions : List FunctionDefinition}

theorem shows_empty : empty.Shows [] := by
  refine ⟨fun d => ?_, .nil⟩
  simp [empty, last?]

theorem Shows.key_mem (h : registry.Shows registered) {key : Key} :
    key ∈ registry.definitions.map FunctionDefinition.key ↔
      key ∈ registered.map FunctionDefinition.key := by
  constructor
  · intro hkey
    obtain ⟨d, hd, rfl⟩ := List.mem_map.1 hkey
    exact List.mem_map_of_mem (last?_eq_some ((h.mem_iff d).1 hd)).1
  · intro hkey
    cases hlast : last? key registered with
    | none => exact absurd hkey (last?_eq_none_iff.1 hlast)
    | some d =>
      obtain ⟨-, rfl⟩ := last?_eq_some hlast
      exact List.mem_map_of_mem ((h.mem_iff d).2 hlast)

/-- One more definition is registered: it is the last one of its key, and a key that is new stands
behind all others. -/
theorem Shows.register (h : registry.Shows registered) (definition : FunctionDefinition) :
    (registry.register definition).Shows (registered ++ [definition]) := by
  constructor
  · intro d
    show d ∈ definition.place registry.definitions ↔ _
    rw [mem_place_iff registry.nodup_keys, last?_concat, h.mem_iff d]
    by_cases hkey : definition.key = d.key
    · simp [hkey, eq_comm]
    · have hne : d ≠ definition := by
        rintro rfl
        exact hkey rfl
      simp [hkey, hne, Ne.symm hkey]
  · have hold : (registry.definitions.map FunctionDefinition.key).Pairwise fun key key' =>
        firstPlace key (registered ++ [definition]) <
          firstPlace key' (registered ++ [definition]) := by
      refine h.ordered.imp_of_mem fun {key key'} hkey hkey' hlt => ?_
      rwa [firstPlace_concat_of_mem (h.key_mem.1 hkey),
        firstPlace_concat_of_mem (h.key_mem.1 hkey')]
    show ((definition.place registry.definitions).map FunctionDefinition.key).Pairwise _
    rw [map_key_place]
    split
    · exact hold
    · rename_i hnew
      refine List.pairwise_append.2 ⟨hold, List.pairwise_singleton _ _, ?_⟩
      intro key hkey key' hkey'
      rw [List.mem_singleton.1 hkey', firstPlace_concat_of_mem (h.key_mem.1 hkey),
        firstPlace_concat_self (mt h.key_mem.2 hnew)]
      exact firstPlace_lt (h.key_mem.1 hkey)

theorem Shows.registerAll (h : registry.Shows registered)
    (definitions : List FunctionDefinition) :
    (registry.registerAll definitions).Shows (registered ++ definitions) := by
  induction definitions generalizing registry registered with
  | nil => simpa [Registry.registerAll] using h
  | cons definition others ih => simpa [Registry.registerAll] using ih (h.register definition)

/-! ## Whole histories -/

theorem registeredSinceClear_concat (steps : List RegistryStep) (step : RegistryStep) :
    registeredSinceClear (steps ++ [step]) =
      if step.isClear then [] else registeredSinceClear steps ++ step.registered := by
  unfold registeredSinceClear
  rw [List.rtakeWhile_concat]
  cases step.isClear <;> simp

theorem shows_ofHistory (steps : List RegistryStep) :
    (ofHistory steps).Shows (registeredSinceClear steps) := by
  induction steps using List.reverseRecOn with
  | nil => exact shows_empty
  | append_singleton steps step ih =>
    rw [registeredSinceClear_concat, ofHistory, List.foldl_append]
    show (RegistryStep.apply (ofHistory steps) step).Shows _
    cases step with
    | register definition => exact ih.register definition
    | registerCallable name implementation qualifier description => exact ih.register _
    | decorate name qualifier metadata implementation => exact ih.register _
    | addLibrary qualifier => exact ih.registerAll _
    | clear => exact shows_empty

/-! ## Looking up -/

theorem Shows.find?_eq (h : registry.Shows registered) (qualifier : Option Text) (name : Text) :
    registry.find? qualifier name = last? (qualifier, name) registered := by
  cases hfind : registry.find? qualifier name with
  | some d =>
    have hd := List.mem_of_find?_eq_some hfind
    have hkey : d.key = (qualifier, name) := by simpa using List.find?_some hfind
    rw [← hkey, (h.mem_iff d).1 hd]
  | none =>
    refine (last?_eq_none_iff.2 fun hkey => ?_).symm
    obtain ⟨d, hd, hkey⟩ := List.mem_map.1 (h.key_mem.2 hkey)
    exact List.find?_eq_none.1 hfind d hd (by simpa using hkey)

theorem Shows.size_eq (h : registry.Shows registered) :
    registry.size = (registered.map FunctionDefinition.key).toFinset.card := by
  have hkeys : (registered.map FunctionDefinition.key).toFinset =
      (registry.definitions.map FunctionDefinition.key).toFinset := by
    ext key
    rw [List.mem_toFinset, List.mem_toFinset, h.key_mem]
  rw [hkeys, List.toFinset_card_of_nodup registry.nodup_keys, List.length_map]
  rfl

/-! ## Categories -/

/-- The definitions of one category after the other are all definitions. -/
theorem flatMap_inCategory_perm (registry : Registry) :
    (FunctionCategory.all.flatMap registry.inCategory).Perm registry.definitions := by
  show (FunctionCategory.all.flatMap fun category =>
    registry.definitions.filter (·.category = category)).Perm registry.definitions
  induction registry.definitions with
  | nil => simp
  | cons d definitions ih =>
    refine .trans ?_ (ih.cons d)
    simp only [FunctionCategory.all, List.flatMap_cons, List.flatMap_nil, List.append_nil,
      List.filter_cons]
    cases d.category with
    | string => exact .refl _
    | collection => exact List.perm_middle
    | markup => exact (List.perm_middle.append_left _).trans List.perm_middle
    | other =>
      exact ((List.perm_middle.append_left _).trans List.perm_middle |>.append_left _).trans
        List.perm_middle

/-- One more definition in groups that are complete up to it. -/
theorem group_map {definition : FunctionDefinition} {categories : List FunctionCategory}
    (hnodup : categories.Nodup)
    (hnew : definition.category ∉ categories →
      definitions.filter (·.category = definition.category) = []) :
    group definition (categories.map fun category =>
      (category, definitions.filter (·.category = category))) =
        (if definition.category ∈ categories then categories
          else categories ++ [definition.category]).map fun category =>
            (category, (definitions ++ [definition]).filter (·.category = category)) := by
  induction categories with
  | nil => simp [group, hnew]
  | cons first others ih =>
    obtain ⟨hfirst, hothers⟩ := List.nodup_cons.1 hnodup
    by_cases hcategory : first = definition.category
    · -- the groups behind are of other categories
      have hrest : ∀ category ∈ others, definition.category ≠ category := by
        rintro category hmem rfl
        exact hfirst (hcategory ▸ hmem)
      simp only [List.map_cons, group, hcategory, List.mem_cons, true_or, if_true]
      refine congrArg₂ List.cons (by simp) (List.map_congr_left fun category hmem => ?_)
      simp [hrest category hmem]
    · have hmem : definition.category ∈ first :: others ↔ definition.category ∈ others := by
        simp [Ne.symm hcategory]
      have hrest := ih hothers fun hnot => hnew (mt hmem.1 hnot)
      simp only [List.map_cons, group, if_neg hcategory, hrest, hmem]
      split <;> simp [Ne.symm hcategory]

/-- The groups of a registry are those of the categories that have a definition, each with the
definitions of its category. -/
theorem byCategory_eq (registry : Registry) : ∃ categories : List FunctionCategory,
    categories.Nodup ∧
    (∀ category, category ∈ categories ↔ ∃ d ∈ registry.definitions, d.category = category) ∧
    registry.byCategory = categories.map fun category =>
      (category, registry.inCategory category) := by
  show ∃ categories : List FunctionCategory, categories.Nodup ∧
    (∀ category, category ∈ categories ↔ ∃ d ∈ registry.definitions, d.category = category) ∧
    registry.definitions.foldl (fun groups definition => group definition groups) [] =
      categories.map fun category =>
        (category, registry.definitions.filter (·.category = category))
  induction registry.definitions using List.reverseRecOn with
  | nil => exact ⟨[], .nil, by simp, rfl⟩
  | append_singleton definitions definition ih =>
    obtain ⟨categories, hnodup, hmem, hgroups⟩ := ih
    have hnew : definition.category ∉ categories →
        definitions.filter (·.category = definition.category) = [] := by
      intro hnot
      rw [List.filter_eq_nil_iff]
      intro d hd hcategory
      exact hnot ((hmem _).2 ⟨d, hd, of_decide_eq_true hcategory⟩)
    have hfold := group_map hnodup hnew
    rw [← hgroups] at hfold
    rw [List.foldl_append]
    refine ⟨_, ?_, fun category => ?_, hfold⟩
    · split
      · exact hnodup
      · rename_i hnot
        refine List.nodup_append.2 ⟨hnodup, by simp, ?_⟩
        rintro category hcategory _ hself rfl
        exact hnot (List.mem_singleton.1 hself ▸ hcategory)
    · have hold : (∃ d ∈ definitions ++ [definition], d.category = category) ↔
          category ∈ categories ∨ category = definition.category := by
        simp [or_and_right, exists_or, hmem, eq_comm]
      rw [hold]
      split
      · rename_i hknown
        exact ⟨.inl, fun h => h.elim id fun he => he ▸ hknown⟩
      · simp

/-! ## Everything that can be asked -/

/-- What is seen of a registry is what these definitions, registered one after the other, leave to
be seen. -/
structure Reflects (registry : Registry) (registered : List FunctionDefinition) : Prop where
  /-- A look-up finds the implementation of the last definition of the key. -/
  lookup?_eq : ∀ qualifier name, registry.lookup? qualifier name =
    (last? (qualifier, name) registered).map (·.implementation)
  /-- It finds none exactly if the key has not been registered. -/
  lookup?_eq_none_iff : ∀ qualifier name, registry.lookup? qualifier name = none ↔
    (qualifier, name) ∉ registered.map FunctionDefinition.key
  /-- The definition that has to be there is the last one of the key. -/
  get_eq_ok_iff : ∀ qualifier name d, registry.get qualifier name = .ok d ↔
    last? (qualifier, name) registered = some d
  /-- It is complained about exactly if the key has not been registered. -/
  get_eq_error_iff : ∀ qualifier name error, registry.get qualifier name = .error error ↔
    error = ⟨qualifier, name⟩ ∧ (qualifier, name) ∉ registered.map FunctionDefinition.key
  contains_iff : ∀ qualifier name, registry.contains qualifier name = true ↔
    (qualifier, name) ∈ registered.map FunctionDefinition.key
  /-- The size is the number of different keys. -/
  size_eq : registry.size = (registered.map FunctionDefinition.key).toFinset.card
  /-- The list of all definitions has the last one of each key, -/
  mem_iff : ∀ d, d ∈ registry.definitions ↔ last? d.key registered = some d
  /-- each key once, -/
  nodup_keys : (registry.definitions.map FunctionDefinition.key).Nodup
  /-- and stands in the order in which the keys were first registered. -/
  ordered : (registry.definitions.map FunctionDefinition.key).Pairwise fun key key' =>
    firstPlace key registered < firstPlace key' registered
  /-- The list of a category is the list of all definitions, those of other categories left out. -/
  inCategory_eq : ∀ category, registry.inCategory category =
    registry.definitions.filter (·.category = category)
  /-- The lists of the categories have all definitions between them. -/
  partition : (FunctionCategory.all.flatMap registry.inCategory).Perm registry.definitions
  /-- The documentation shows these lists by the names of their categories, and no others. -/
  documented : ∃ functions groups, registry.document =
      .object [("functions".toList, functions), ("byCategory".toList, .object groups)] ∧
    (groups.map Prod.fst).Nodup ∧
    ∀ title shown, (title, shown) ∈ groups ↔ ∃ category, title = category.name ∧
      registry.inCategory category ≠ [] ∧
      shown = .list ((registry.inCategory category).map (·.document))

theorem name_injective : Function.Injective FunctionCategory.name := by
  intro category category' h
  have hsame := congrArg FunctionCategory.ofName? h
  simpa [FunctionCategory.ofName?_name] using hsame

theorem documented (registry : Registry) : (registry.categoryDocuments.map Prod.fst).Nodup ∧
    ∀ title shown, (title, shown) ∈ registry.categoryDocuments ↔ ∃ category,
      title = category.name ∧ registry.inCategory category ≠ [] ∧
      shown = .list ((registry.inCategory category).map (·.document)) := by
  obtain ⟨categories, hnodup, hmem, hgroups⟩ := registry.byCategory_eq
  have hfull : ∀ category, category ∈ categories ↔ registry.inCategory category ≠ [] := by
    intro category
    rw [hmem, inCategory, Ne, List.filter_eq_nil_iff]
    simp
  unfold categoryDocuments
  rw [hgroups]
  constructor
  · simp only [List.map_map]
    exact hnodup.map name_injective
  · intro title shown
    simp only [List.map_map, List.mem_map, Function.comp_apply, Prod.mk.injEq]
    constructor
    · rintro ⟨category, hcategory, rfl, rfl⟩
      exact ⟨category, rfl, (hfull category).1 hcategory, rfl⟩
    · rintro ⟨category, rfl, hcategory, rfl⟩
      exact ⟨category, (hfull category).2 hcategory, rfl, rfl⟩

theorem Shows.reflects (h : registry.Shows registered) : registry.Reflects registered := by
  have hfind := h.find?_eq
  constructor
  case lookup?_eq =>
    intro qualifier name
    rw [lookup?, hfind]
  case lookup?_eq_none_iff =>
    intro qualifier name
    rw [lookup?, hfind, Option.map_eq_none_iff, last?_eq_none_iff]
  case get_eq_ok_iff =>
    intro qualifier name d
    rw [get, hfind]
    cases last? (qualifier, name) registered <;> simp
  case get_eq_error_iff =>
    intro qualifier name error
    rw [get, hfind, ← last?_eq_none_iff]
    cases last? (qualifier, name) registered <;> simp [eq_comm]
  case contains_iff =>
    intro qualifier name
    rw [← h.key_mem]
    simp [contains]
  case size_eq => exact h.size_eq
  case mem_iff => exact h.mem_iff
  case nodup_keys => exact registry.nodup_keys
  case ordered => exact h.ordered
  case inCategory_eq => exact fun _ => rfl
  case partition => exact registry.flatMap_inCategory_perm
  case documented => exact ⟨_, _, rfl, registry.documented⟩

/-- **A registry is a map with an order.**  After any sequence of steps, everything that can be
asked of the registry is answered from the definitions registered since it was last cleared: a key
stands for the last one of its definitions, be its qualifier absent or any text, and has its place
where it was first registered, so a definition that replaces another one shows up in its place and
in its own category. -/
theorem reflects_ofHistory (steps : List RegistryStep) :
    (ofHistory steps).Reflects (registeredSinceClear steps) :=
  (shows_ofHistory steps).reflects

/-- A function that is registered again, now as one of strings, stays in front of the other one. -/
example (f g : HostFunction) :
    let registry := ofHistory [.registerCallable ['a'] f none [], .registerCallable ['b'] f none [],
      .register { name := ['a'], qualifier := none, implementation := g, category := .string }]
    registry.definitions.map (·.name) = [['a'], ['b']] ∧
      (registry.inCategory .string).map (·.implementation) = [g] :=
  ⟨rfl, rfl⟩

end Registry

end ExprLang
