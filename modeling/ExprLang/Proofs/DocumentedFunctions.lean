import ExprLang.Proofs.RegistryHistory

/-!
# The functions that the documentation shows

A registry tells its functions apart by qualifier and name, and its documentation shows them twice:
by category, and under the qualified name that they are called by.  By category every function is
shown.  Under its qualified name a function is lost if another one that was registered behind it is
written in the same way, as a function without a qualifier and one with an empty qualifier are.

* `qualifiedName_injective` — names without a colon are told apart by how they are written.
* `Registry.named_listing` — the entries under qualified names.
* `Registry.byCategory_perm` — the groups of all categories.
* `Registry.functionEntries`, `Registry.categoryGroups` — both lists as they are shown.
* `Registry.ShowsFunctions` — what both lists show, and exactly when they show the same.
* `Registry.exists_shownFunctions` — the documentation after any history.
-/

namespace ExprLang

/-! ## Qualified names -/

section

variable {front front' name name' : Text} {qualifier qualifier' : Option Text}

/-- A name without a colon is what stands behind the last one. -/
theorem append_colon_inj (hname : ':' ∉ name) (hname' : ':' ∉ name')
    (h : front ++ ':' :: name = front' ++ ':' :: name') : front = front' ∧ name = name' := by
  -- the part by which one front is longer would have the colon of the other name in it
  have hgap : ∀ {gap s t : Text}, ':' ∉ s → ':' :: s = gap ++ ':' :: t → gap = [] ∧ s = t := by
    intro gap s t hs hgap
    cases gap with
    | nil => exact ⟨rfl, (List.cons.inj hgap).2⟩
    | cons d gap =>
      rw [(List.cons.inj hgap).2] at hs
      exact absurd (by simp) hs
  rcases List.append_eq_append_iff.1 h with ⟨gap, rfl, hrest⟩ | ⟨gap, rfl, hrest⟩
  · obtain ⟨rfl, rfl⟩ := hgap hname hrest
    exact ⟨by simp, rfl⟩
  · obtain ⟨rfl, rfl⟩ := hgap hname' hrest
    exact ⟨by simp, rfl⟩

/-- A qualifier that is not empty stands in front of a colon. -/
theorem qualifiedName_of_ne_nil (h : front ≠ []) :
    qualifiedName (some front) name = front ++ ':' :: name := by
  obtain ⟨c, rest, rfl⟩ := List.exists_cons_of_ne_nil h
  rfl

/-- Names without a colon are written differently if their qualifiers differ, unless one of these is
empty. -/
theorem qualifiedName_injective (hempty : qualifier ≠ some []) (hempty' : qualifier' ≠ some [])
    (hname : ':' ∉ name) (hname' : ':' ∉ name')
    (h : qualifiedName qualifier name = qualifiedName qualifier' name') :
    qualifier = qualifier' ∧ name = name' := by
  have hmem : ∀ (front name : Text), ':' ∈ front ++ ':' :: name := by simp
  cases qualifier with
  | none =>
    cases qualifier' with
    | none => exact ⟨rfl, h⟩
    | some front' =>
      rw [qualifiedName_of_ne_nil fun hnil => hempty' (congrArg some hnil)] at h
      obtain rfl : name = front' ++ ':' :: name' := h
      exact absurd (hmem front' name') hname
  | some front =>
    rw [qualifiedName_of_ne_nil fun hnil => hempty (congrArg some hnil)] at h
    cases qualifier' with
    | none =>
      obtain rfl : front ++ ':' :: name = name' := h
      exact absurd (hmem front name) hname'
    | some front' =>
      rw [qualifiedName_of_ne_nil fun hnil => hempty' (congrArg some hnil)] at h
      obtain ⟨rfl, rfl⟩ := append_colon_inj hname hname' h
      exact ⟨rfl, rfl⟩

end

namespace FunctionDefinition

/-- The last one of the definitions that are written with a qualified name. -/
def lastNamed? (title : Text) (definitions : List FunctionDefinition) :
    Option FunctionDefinition :=
  (definitions.filter (·.qualifiedName = title)).getLast?

theorem lastNamed?_concat (title : Text) (definitions : List FunctionDefinition)
    (definition : FunctionDefinition) :
    lastNamed? title (definitions ++ [definition]) =
      if definition.qualifiedName = title then some definition
      else lastNamed? title definitions := by
  unfold lastNamed?
  by_cases h : definition.qualifiedName = title
  · simp [h]
  · simp [h]

theorem lastNamed?_eq_none_iff {title : Text} {definitions : List FunctionDefinition} :
    lastNamed? title definitions = none ↔
      title ∉ definitions.map FunctionDefinition.qualifiedName := by
  unfold lastNamed?
  rw [List.getLast?_eq_none_iff, List.filter_eq_nil_iff]
  simp

end FunctionDefinition

namespace Registry

open FunctionDefinition

variable {registry : Registry} {definition d : FunctionDefinition} {title : Text}
  {definitions : List FunctionDefinition} {entries : List (Text × FunctionDefinition)}

/-! ## The entries by qualified name -/

theorem map_fst_name (definition : FunctionDefinition)
    (entries : List (Text × FunctionDefinition)) :
    (name definition entries).map Prod.fst =
      if definition.qualifiedName ∈ entries.map Prod.fst then entries.map Prod.fst
      else entries.map Prod.fst ++ [definition.qualifiedName] := by
  induction entries with
  | nil => simp [name]
  | cons entry entries ih =>
    by_cases h : entry.1 = definition.qualifiedName
    · simp [name, h]
    · have h' : ¬ definition.qualifiedName = entry.1 := fun e => h e.symm
      simp only [name, h, if_false, List.map_cons, ih, List.mem_cons, h', false_or]
      split <;> simp

/-- A definition takes the entry of its name, and all others stay. -/
theorem mem_name_iff (h : (entries.map Prod.fst).Nodup) :
    (title, d) ∈ name definition entries ↔
      title = definition.qualifiedName ∧ d = definition ∨
      title ≠ definition.qualifiedName ∧ (title, d) ∈ entries := by
  induction entries with
  | nil => simp [name]
  | cons entry entries ih =>
    obtain ⟨hentry, hentries⟩ := List.nodup_cons.1 h
    obtain ⟨first, e⟩ := entry
    have hother : (title, d) ∈ entries → title ≠ first := by
      rintro hmem rfl
      exact hentry (List.mem_map.2 ⟨_, hmem, rfl⟩)
    unfold name
    split
    · rename_i hname
      replace hname : first = definition.qualifiedName := hname
      subst hname
      simp only [List.mem_cons, Prod.mk.injEq]
      constructor
      · rintro (hself | hmem)
        · exact .inl hself
        · exact .inr ⟨hother hmem, .inr hmem⟩
      · rintro (hself | ⟨hne, hsame | hmem⟩)
        · exact .inl hself
        · exact absurd hsame.1 hne
        · exact .inr hmem
    · rename_i hname
      replace hname : first ≠ definition.qualifiedName := hname
      simp only [List.mem_cons, Prod.mk.injEq, ih hentries]
      constructor
      · rintro (⟨rfl, rfl⟩ | hself | ⟨hne, hmem⟩)
        · exact .inr ⟨hname, .inl ⟨rfl, rfl⟩⟩
        · exact .inl hself
        · exact .inr ⟨hne, .inr hmem⟩
      · rintro (hself | ⟨hne, hsame | hmem⟩)
        · exact .inr (.inl hself)
        · exact .inl hsame
        · exact .inr (.inr ⟨hne, hmem⟩)

/-- Each qualified name has one entry, which holds the last definition of that name. -/
structure Listing (entries : List (Text × FunctionDefinition))
    (definitions : List FunctionDefinition) : Prop where
  nodup : (entries.map Prod.fst).Nodup
  mem_iff : ∀ title d, (title, d) ∈ entries ↔ lastNamed? title definitions = some d

theorem Listing.name (h : Listing entries definitions) (definition : FunctionDefinition) :
    Listing (Registry.name definition entries) (definitions ++ [definition]) where
  nodup := by
    rw [map_fst_name]
    split
    · exact h.nodup
    · rename_i hnew
      refine List.nodup_append.2 ⟨h.nodup, by simp, ?_⟩
      rintro title htitle _ hself rfl
      exact hnew (List.mem_singleton.1 hself ▸ htitle)
  mem_iff title d := by
    rw [mem_name_iff h.nodup, lastNamed?_concat, h.mem_iff]
    by_cases htitle : definition.qualifiedName = title
    · simp [htitle, eq_comm]
    · simp [htitle, Ne.symm htitle]

theorem named_listing (registry : Registry) : Listing registry.named registry.definitions := by
  show Listing (registry.definitions.foldl (fun entries definition => name definition entries) [])
    registry.definitions
  induction registry.definitions using List.reverseRecOn with
  | nil => exact ⟨.nil, by simp [lastNamed?]⟩
  | append_singleton definitions definition ih =>
    rw [List.foldl_append]
    exact ih.name definition

theorem Listing.map_fst_mem (h : Listing entries definitions) :
    title ∈ entries.map Prod.fst ↔ title ∈ definitions.map FunctionDefinition.qualifiedName := by
  rw [← not_iff_not, ← lastNamed?_eq_none_iff, Option.eq_none_iff_forall_ne_some]
  simp [h.mem_iff]

/-- There are as many entries as different names. -/
theorem Listing.length_eq (h : Listing entries definitions) :
    entries.length = (definitions.map FunctionDefinition.qualifiedName).toFinset.card := by
  have hnames : (definitions.map FunctionDefinition.qualifiedName).toFinset =
      (entries.map Prod.fst).toFinset := by
    ext title
    rw [List.mem_toFinset, List.mem_toFinset, h.map_fst_mem]
  rw [hnames, List.toFinset_card_of_nodup h.nodup, List.length_map]

theorem name_of_not_mem (h : definition.qualifiedName ∉ entries.map Prod.fst) :
    name definition entries = entries ++ [(definition.qualifiedName, definition)] := by
  induction entries with
  | nil => rfl
  | cons entry entries ih =>
    rw [List.map_cons, List.mem_cons, not_or] at h
    rw [name, if_neg (Ne.symm h.1), ih h.2]
    rfl

/-- Where all names are different, no definition loses its entry. -/
theorem named_eq_map (h : (registry.definitions.map FunctionDefinition.qualifiedName).Nodup) :
    registry.named = registry.definitions.map fun d => (d.qualifiedName, d) := by
  revert h
  show _ → registry.definitions.foldl (fun entries definition => name definition entries) [] =
    registry.definitions.map fun d => (d.qualifiedName, d)
  induction registry.definitions using List.reverseRecOn with
  | nil => exact fun _ => rfl
  | append_singleton definitions definition ih =>
    intro h
    rw [List.map_append, List.nodup_append] at h
    obtain ⟨hnodup, -, hdisjoint⟩ := h
    rw [List.foldl_append, ih hnodup, List.foldl_cons, List.foldl_nil, name_of_not_mem,
      List.map_append]
    · rfl
    · rw [List.map_map]
      exact fun hmem => hdisjoint _ hmem _ List.mem_cons_self rfl

/-! ## The groups by category -/

theorem flatMap_group_perm (definition : FunctionDefinition)
    (groups : List (FunctionCategory × List FunctionDefinition)) :
    ((group definition groups).flatMap Prod.snd).Perm
      (groups.flatMap Prod.snd ++ [definition]) := by
  induction groups with
  | nil => exact .refl _
  | cons entry groups ih =>
    unfold group
    split
    · simp only [List.flatMap_cons, List.append_assoc]
      exact List.perm_append_comm.append_left _
    · simp only [List.flatMap_cons, List.append_assoc]
      exact ih.append_left _

/-- The groups have all definitions between them. -/
theorem byCategory_perm (registry : Registry) :
    (registry.byCategory.flatMap Prod.snd).Perm registry.definitions := by
  show ((registry.definitions.foldl (fun groups definition => group definition groups)
    []).flatMap Prod.snd).Perm registry.definitions
  induction registry.definitions using List.reverseRecOn with
  | nil => exact .refl _
  | append_singleton definitions definition ih =>
    rw [List.foldl_append]
    exact (flatMap_group_perm definition _).trans (ih.append_right _)

/-! ## Both lists of the documentation -/

/-- No two functions of the registry are written in the same way. -/
def NamesApart (registry : Registry) : Prop :=
  ∀ d ∈ registry.definitions, ∀ d' ∈ registry.definitions,
    d.qualifiedName = d'.qualifiedName → d.key = d'.key

theorem namesApart_iff_nodup : registry.NamesApart ↔
    (registry.definitions.map FunctionDefinition.qualifiedName).Nodup := by
  constructor
  · intro h
    refine List.Nodup.map_on (fun d hd d' hd' hname => ?_) registry.nodup_keys.of_map
    exact List.inj_on_of_nodup_map registry.nodup_keys hd hd' (h d hd d' hd' hname)
  · intro h d hd d' hd' hname
    rw [List.inj_on_of_nodup_map h hd hd' hname]

/-- The functions as they are shown under their qualified names. -/
def functionEntries (registry : Registry) : List (Text × Document) :=
  registry.named.map fun entry => (entry.1, entry.2.document)

/-- The functions as they are shown by category. -/
def categoryGroups (registry : Registry) : List (Text × List Document) :=
  registry.byCategory.map fun entry => (entry.1.name, entry.2.map (·.document))

theorem functionEntries_map_fst (registry : Registry) :
    registry.functionEntries.map Prod.fst = registry.named.map Prod.fst := by
  rw [functionEntries, List.map_map]
  rfl

theorem mem_functionEntries {shown : Document} : (title, shown) ∈ registry.functionEntries ↔
    ∃ d, lastNamed? title registry.definitions = some d ∧ shown = d.document := by
  simp only [functionEntries, List.mem_map, Prod.exists, Prod.mk.injEq,
    registry.named_listing.mem_iff]
  constructor
  · rintro ⟨title', d, hlast, rfl, rfl⟩
    exact ⟨d, hlast, rfl⟩
  · rintro ⟨d, hlast, rfl⟩
    exact ⟨title, d, hlast, rfl, rfl⟩

theorem length_functionEntries_iff :
    registry.functionEntries.length = registry.size ↔ registry.NamesApart := by
  rw [namesApart_iff_nodup, functionEntries, List.length_map, registry.named_listing.length_eq, size,
    ← List.length_map FunctionDefinition.qualifiedName]
  exact Multiset.toFinset_card_eq_card_iff_nodup

theorem functionEntries_eq_map (h : registry.NamesApart) : registry.functionEntries =
    registry.definitions.map fun d => (d.qualifiedName, d.document) := by
  rw [functionEntries, named_eq_map (namesApart_iff_nodup.1 h), List.map_map]
  rfl

theorem flatMap_categoryGroups_perm (registry : Registry) :
    (registry.categoryGroups.flatMap Prod.snd).Perm (registry.definitions.map (·.document)) := by
  rw [categoryGroups, List.flatMap_map, ← List.map_flatMap]
  exact registry.byCategory_perm.map _

/-- What the documentation of a registry shows of its functions: entries by qualified name, and
groups by category. -/
structure ShowsFunctions (registry : Registry) (functions : List (Text × Document))
    (groups : List (Text × List Document)) : Prop where
  /-- The documentation consists of both. -/
  document_eq : registry.document = .object [
    ("functions".toList, .object functions),
    ("byCategory".toList, .object (groups.map fun entry => (entry.1, .list entry.2)))]
  /-- The groups show all functions. -/
  groups_perm : (groups.flatMap Prod.snd).Perm (registry.definitions.map (·.document))
  /-- A qualified name has one entry, -/
  names_nodup : (functions.map Prod.fst).Nodup
  /-- which shows the last function of the registry that is written with this name. -/
  mem_iff : ∀ title shown, (title, shown) ∈ functions ↔
    ∃ d, lastNamed? title registry.definitions = some d ∧ shown = d.document
  /-- There is an entry for every function exactly if no two are written in the same way, -/
  length_eq_iff : functions.length = registry.size ↔ registry.NamesApart
  /-- and so it is with the entries showing what the groups show. -/
  perm_iff : (functions.map Prod.snd).Perm (groups.flatMap Prod.snd) ↔ registry.NamesApart
  /-- The entries are then those of the functions in their order. -/
  functions_eq : registry.NamesApart →
    functions = registry.definitions.map fun d => (d.qualifiedName, d.document)

theorem showsFunctions (registry : Registry) :
    registry.ShowsFunctions registry.functionEntries registry.categoryGroups := by
  have hgroups := registry.flatMap_categoryGroups_perm
  constructor
  case document_eq =>
    rw [document, categoryDocuments, categoryGroups, List.map_map]
    rfl
  case groups_perm => exact hgroups
  case names_nodup => exact registry.functionEntries_map_fst ▸ registry.named_listing.nodup
  case mem_iff => exact fun _ _ => mem_functionEntries
  case length_eq_iff => exact length_functionEntries_iff
  case perm_iff =>
    constructor
    · intro h
      have hsize := (h.trans hgroups).length_eq
      rw [List.length_map] at hsize
      exact length_functionEntries_iff.1 (hsize.trans (List.length_map _))
    · intro h
      rw [functionEntries_eq_map h, List.map_map]
      exact hgroups.symm
  case functions_eq => exact functionEntries_eq_map

/-- What is registered without colons in its names and without empty qualifiers is told apart by how
it is written. -/
theorem namesApart_of_plain {steps : List RegistryStep}
    (h : ∀ d ∈ registeredSinceClear steps, d.qualifier ≠ some [] ∧ ':' ∉ d.name) :
    (ofHistory steps).NamesApart := by
  intro d hd d' hd' hname
  have hplain : ∀ e ∈ (ofHistory steps).definitions, e.qualifier ≠ some [] ∧ ':' ∉ e.name :=
    fun e he => h e (last?_eq_some ((shows_ofHistory steps).mem_iff e |>.1 he)).1
  obtain ⟨hqualifier, hcolon⟩ := hplain d hd
  obtain ⟨hqualifier', hcolon'⟩ := hplain d' hd'
  obtain ⟨hsame, hsame'⟩ :=
    qualifiedName_injective hqualifier hqualifier' hcolon hcolon' hname
  exact Prod.ext hsame hsame'

/-- **The documentation shows every function by category, and by name unless another one is written
in the same way.**  After any sequence of steps, the groups of the categories show each registered
function once.  The entries under qualified names are as many as the registered functions, and show
the same, exactly if no two of these are written in the same way; otherwise the one that stands last
in the registry is shown.  Functions whose names have no colon, and whose qualifiers are not the
empty text, are never written in the same way. -/
theorem exists_shownFunctions (steps : List RegistryStep) :
    (∃ functions groups, (ofHistory steps).ShowsFunctions functions groups) ∧
      ((∀ d ∈ registeredSinceClear steps, d.qualifier ≠ some [] ∧ ':' ∉ d.name) →
        (ofHistory steps).NamesApart) :=
  ⟨⟨_, _, (ofHistory steps).showsFunctions⟩, namesApart_of_plain⟩

/-- A function without a qualifier and one with an empty qualifier are two functions of a registry,
and one of its documentation. -/
theorem document_lost_function :
    let answer : HostFunction := .pure fun _ => .ok .null
    let registry := ofHistory [.registerCallable ['f'] answer none ['1'],
      .registerCallable ['f'] answer (some []) ['2']]
    registry.size = 2 ∧ ∃ functions groups, registry.document =
        .object [("functions".toList, .object functions), ("byCategory".toList, .object groups)] ∧
      functions.length = 1 :=
  ⟨rfl, _, _, rfl, rfl⟩

end Registry

end ExprLang
