import ExprLang.Proofs.IntegerSetting

/-!
# Which environments are accepted

Four variables are read one after the other, each with three outcomes: the default, a value of its
own, or an error, and the first error is the answer.  What the variables have to hold is said here
of their texts, and options that are written into variables come out again.

* `Setting`, `DepthText`, `FlagText` — what a variable may hold, and what that means.
* `Complaint`, `FirstComplaint` — what is wrong with a variable, and with the first wrong one.
* `ofEnvironment_eq_ok_iff`, `ofEnvironment_eq_error_iff` — when there are options, and when not.
* `ReadsOptions`, `options_read` — valid environments, and options that are written and read.
-/

namespace ExprLang

namespace ParserOptions

/-! ## What variables mean -/

/-- A variable holds nothing, which leaves the default, or a text with a meaning. -/
inductive Setting {α : Type} (Means : Text → α → Prop) (default : α) : Option Text → α → Prop where
  | unset : Setting Means default none default
  | empty : Setting Means default (some []) default
  | text {raw : Text} {value : α} :
    raw ≠ [] → Means raw value → Setting Means default (some raw) value

/-- The text of an integer of at least one. -/
def DepthText (raw : Text) (depth : Nat) : Prop :=
  1 ≤ depth ∧ IntegerText raw depth

/-- A word for yes or for no, in any case and with blanks around it. -/
def FlagText (raw : Text) (flag : Bool) : Prop :=
  Unicode.lower (Text.trim raw) ∈ if flag then yesWords else noWords

def flagVariables : List Text := [conditionalVariable, matchVariable, joinVariable]

theorem conditionalVariable_mem : conditionalVariable ∈ flagVariables := by simp [flagVariables]

theorem matchVariable_mem : matchVariable ∈ flagVariables := by simp [flagVariables]

theorem joinVariable_mem : joinVariable ∈ flagVariables := by simp [flagVariables]

theorem depthVariable_not_mem : depthVariable ∉ flagVariables := by decide

/-- The variables in the order in which they are read. -/
def optionVariables : List Text := depthVariable :: flagVariables

/-- The options have the values that the variables stand for. -/
structure DenotedBy (options : ParserOptions) (environment : Environment) : Prop where
  maxDepth : Setting DepthText 50 (environment depthVariable) options.maxDepth
  conditionalAllowed :
    Setting FlagText true (environment conditionalVariable) options.conditionalAllowed
  matchAllowed : Setting FlagText false (environment matchVariable) options.matchAllowed
  joinAllowed : Setting FlagText false (environment joinVariable) options.joinAllowed

/-- Every variable that is set to something holds a text with a meaning. -/
structure IsValid (environment : Environment) : Prop where
  depth : ∀ raw, environment depthVariable = some raw → raw ≠ [] → ∃ depth, DepthText raw depth
  flags : ∀ name ∈ flagVariables, ∀ raw, environment name = some raw → raw ≠ [] →
    ∃ flag, FlagText raw flag

/-- Each option is the same in both if its variable is. -/
structure Separate (environment environment' : Environment) (options options' : ParserOptions) :
    Prop where
  maxDepth : environment depthVariable = environment' depthVariable →
    options.maxDepth = options'.maxDepth
  conditionalAllowed : environment conditionalVariable = environment' conditionalVariable →
    options.conditionalAllowed = options'.conditionalAllowed
  matchAllowed : environment matchVariable = environment' matchVariable →
    options.matchAllowed = options'.matchAllowed
  joinAllowed : environment joinVariable = environment' joinVariable →
    options.joinAllowed = options'.joinAllowed

/-- What is wrong with a variable. -/
inductive Complaint (environment : Environment) : Text → OptionsError → Prop where
  | notAnInteger {raw : Text} :
    environment depthVariable = some raw → raw ≠ [] → (∀ i, ¬ IntegerText raw i) →
    Complaint environment depthVariable (.notAnInteger depthVariable raw)
  | depthTooSmall {raw : Text} {i : Int} :
    environment depthVariable = some raw → raw ≠ [] → IntegerText raw i → i < 1 →
    Complaint environment depthVariable (.depthTooSmall depthVariable)
  | notABoolean {name raw : Text} :
    name ∈ flagVariables → environment name = some raw → raw ≠ [] →
    (∀ flag, ¬ FlagText raw flag) → Complaint environment name (.notABoolean name raw)

/-- Something is wrong with the variable, and with none in front of it in the list. -/
inductive FirstComplaint (environment : Environment) :
    List Text → Text → OptionsError → Prop where
  | here {name : Text} {names : List Text} {error : OptionsError} :
    Complaint environment name error → FirstComplaint environment (name :: names) name error
  | later {first name : Text} {names : List Text} {error : OptionsError} :
    (∀ error, ¬ Complaint environment first error) → FirstComplaint environment names name error →
    FirstComplaint environment (first :: names) name error

variable {environment environment' : Environment} {name raw : Text} {names : List Text}
  {error : OptionsError} {options : ParserOptions} {default flag : Bool} {depth : Nat}

/-- An error names its variable at the beginning of its message. -/
theorem Complaint.begins_message (h : Complaint environment name error) :
    name <+: error.message := by
  cases h with
  | notAnInteger | notABoolean =>
    rw [OptionsError.message, List.append_assoc]
    exact List.prefix_append _ _
  | depthTooSmall => exact List.prefix_append _ _

theorem FirstComplaint.complaint (h : FirstComplaint environment names name error) :
    Complaint environment name error := by
  induction h with
  | here h => exact h
  | later _ _ ih => exact ih

theorem exists_firstComplaint_cons {first : Text} :
    (∃ name, FirstComplaint environment (first :: names) name error) ↔
      Complaint environment first error ∨ (∀ error, ¬ Complaint environment first error) ∧
        ∃ name, FirstComplaint environment names name error := by
  constructor
  · rintro ⟨name, h | ⟨hfirst, h⟩⟩
    · exact .inl h
    · exact .inr ⟨hfirst, name, h⟩
  · rintro (h | ⟨hfirst, name, h⟩)
    · exact ⟨first, .here h⟩
    · exact ⟨name, .later hfirst h⟩

/-! ## One variable -/

theorem exists_setting_iff {α : Type} {Means : Text → α → Prop} {held : Option Text}
    (default : α) : (∃ value, Setting Means default held value) ↔
      ∀ raw, held = some raw → raw ≠ [] → ∃ value, Means raw value := by
  constructor
  · rintro ⟨value, _ | _ | ⟨-, h⟩⟩ raw hheld hne
    · cases hheld
    · cases hheld
      exact absurd rfl hne
    · cases hheld
      exact ⟨value, h⟩
  · intro h
    match held with
    | none => exact ⟨default, .unset⟩
    | some [] => exact ⟨default, .empty⟩
    | some (c :: raw) =>
      obtain ⟨value, hvalue⟩ := h (c :: raw) rfl (List.cons_ne_nil c raw)
      exact ⟨value, .text (List.cons_ne_nil c raw) hvalue⟩

theorem Setting.unique {α : Type} {Means : Text → α → Prop} {default value value' : α}
    {held held' : Option Text} (h : Setting Means default held value)
    (h' : Setting Means default held' value')
    (hmeans : ∀ raw, Means raw value → Means raw value' → value = value') (hsame : held = held') :
    value = value' := by
  subst hsame
  cases h with
  | unset =>
    cases h'
    rfl
  | empty =>
    cases h' with
    | empty => rfl
    | text hne => exact absurd rfl hne
  | @text raw _ hne hvalue =>
    cases h' with
    | empty => exact absurd rfl hne
    | text _ hvalue' => exact hmeans raw hvalue hvalue'

theorem DepthText.unique {depth' : Nat} (h : DepthText raw depth) (h' : DepthText raw depth') :
    depth = depth' := by
  have hread := readInteger?_eq_some_iff.2 h.2
  rw [readInteger?_eq_some_iff.2 h'.2] at hread
  exact (Int.ofNat.inj (Option.some.inj hread)).symm

/-- No word is both for yes and for no. -/
theorem FlagText.unique {flag' : Bool} (h : FlagText raw flag) (h' : FlagText raw flag') :
    flag = flag' := by
  have hapart : ∀ word ∈ yesWords, word ∉ noWords := by decide
  cases flag <;> cases flag'
  · rfl
  · exact absurd h (hapart _ h')
  · exact absurd h' (hapart _ h)
  · rfl

theorem setting?_eq_some_iff :
    setting? environment name = some raw ↔ environment name = some raw ∧ raw ≠ [] := by
  simp [setting?, Option.filter_eq_some_iff]

theorem setting?_eq_none_iff :
    setting? environment name = none ↔ environment name = none ∨ environment name = some [] := by
  cases h : environment name <;> simp [setting?, h, Option.filter]

theorem setting_iff_of_none {α : Type} {Means : Text → α → Prop} {default value : α}
    (h : setting? environment name = none) :
    Setting Means default (environment name) value ↔ default = value := by
  rcases setting?_eq_none_iff.1 h with h | h <;> rw [h]
  · constructor
    · rintro ⟨⟩
      rfl
    · rintro rfl
      exact .unset
  · constructor
    · rintro (_ | _ | ⟨hne, -⟩)
      · rfl
      · exact absurd rfl hne
    · rintro rfl
      exact .empty

theorem setting_iff_of_some {α : Type} {Means : Text → α → Prop} {default value : α}
    (h : setting? environment name = some raw) :
    Setting Means default (environment name) value ↔ Means raw value := by
  obtain ⟨henvironment, hne⟩ := setting?_eq_some_iff.1 h
  rw [henvironment]
  constructor
  · rintro (_ | _ | ⟨-, h⟩)
    · exact absurd rfl hne
    · exact h
  · exact .text hne

theorem readDepth_eq_ok_iff {default : Nat} : readDepth environment default = .ok depth ↔
    Setting DepthText default (environment depthVariable) depth := by
  unfold readDepth
  cases hsetting : setting? environment depthVariable with
  | none => simp [setting_iff_of_none hsetting]
  | some raw =>
    rw [setting_iff_of_some hsetting, DepthText, ← readInteger?_eq_some_iff]
    cases hread : readInteger? raw with
    | none => simp [hread]
    | some i =>
      by_cases hlt : i < 1
      · simp only [hread, if_pos hlt, reduceCtorEq, Option.some.injEq, false_iff]
        omega
      · simp only [hread, if_neg hlt, Except.ok.injEq, Option.some.injEq]
        omega

theorem readDepth_eq_error_iff {default : Nat} : readDepth environment default = .error error ↔
    Complaint environment depthVariable error := by
  constructor
  · intro h
    unfold readDepth at h
    split at h
    · cases h
    · rename_i raw hsetting
      obtain ⟨henvironment, hne⟩ := setting?_eq_some_iff.1 hsetting
      split at h
      · rename_i hread
        cases h
        refine .notAnInteger henvironment hne fun i hi => ?_
        rw [readInteger?_eq_some_iff.2 hi] at hread
        cases hread
      · rename_i i hread
        split at h
        · rename_i hlt
          cases h
          exact .depthTooSmall henvironment hne (readInteger?_eq_some_iff.1 hread) hlt
        · cases h
  · intro h
    generalize hname : depthVariable = name at h
    cases h with
    | @notAnInteger raw henvironment hne hnone =>
      have hread : readInteger? raw = none :=
        Option.eq_none_iff_forall_ne_some.2 fun i hi => hnone i (readInteger?_eq_some_iff.1 hi)
      simp only [readDepth, setting?_eq_some_iff.2 ⟨henvironment, hne⟩, hread]
    | @depthTooSmall raw i henvironment hne hi hlt =>
      simp only [readDepth, setting?_eq_some_iff.2 ⟨henvironment, hne⟩,
        readInteger?_eq_some_iff.2 hi, if_pos hlt]
    | notABoolean hflag =>
      subst hname
      exact absurd hflag depthVariable_not_mem

theorem readFlag_eq_ok_iff : readFlag environment name default = .ok flag ↔
    Setting FlagText default (environment name) flag := by
  unfold readFlag
  cases hsetting : setting? environment name with
  | none => simp [setting_iff_of_none hsetting]
  | some raw =>
    rw [setting_iff_of_some hsetting]
    by_cases hno : FlagText raw false
    · simp only [if_pos (show _ ∈ noWords from hno), Except.ok.injEq]
      exact ⟨fun h => h ▸ hno, hno.unique⟩
    · by_cases hyes : FlagText raw true
      · simp only [if_neg (show _ ∉ noWords from hno), if_pos (show _ ∈ yesWords from hyes),
          Except.ok.injEq]
        exact ⟨fun h => h ▸ hyes, hyes.unique⟩
      · simp only [if_neg (show _ ∉ noWords from hno), if_neg (show _ ∉ yesWords from hyes),
          reduceCtorEq, false_iff]
        cases flag
        · exact hno
        · exact hyes

theorem readFlag_eq_error_iff (hname : name ∈ flagVariables) :
    readFlag environment name default = .error error ↔ Complaint environment name error := by
  constructor
  · intro h
    unfold readFlag at h
    split at h
    · cases h
    · rename_i raw hsetting
      obtain ⟨henvironment, hne⟩ := setting?_eq_some_iff.1 hsetting
      simp only at h
      split at h
      · cases h
      · rename_i hno
        split at h
        · cases h
        · rename_i hyes
          cases h
          refine .notABoolean hname henvironment hne fun flag => ?_
          cases flag
          · exact hno
          · exact hyes
  · intro h
    cases h with
    | notAnInteger | depthTooSmall => exact absurd hname depthVariable_not_mem
    | @notABoolean _ raw _ henvironment hne hnone =>
      simp only [readFlag, setting?_eq_some_iff.2 ⟨henvironment, hne⟩,
        if_neg (show _ ∉ noWords from hnone false), if_neg (show _ ∉ yesWords from hnone true)]

/-! ## The options -/

section

variable {ε α β : Type} {x : Except ε α} {f : α → Except ε β} {e : ε}

theorem bind_eq_ok_iff {b : β} : x >>= f = .ok b ↔ ∃ a, x = .ok a ∧ f a = .ok b := by
  cases x with
  | error e => exact iff_of_false nofun nofun
  | ok a => simp [bind, Except.bind]

theorem bind_eq_error_iff :
    x >>= f = .error e ↔ x = .error e ∨ ∃ a, x = .ok a ∧ f a = .error e := by
  cases x <;> simp [bind, Except.bind]

theorem exists_eq_ok_iff : (∃ a, x = .ok a) ↔ ∀ e, x ≠ .error e := by
  cases x <;> simp

end

theorem ofEnvironment_eq_ok_iff :
    ofEnvironment environment = .ok options ↔ options.DenotedBy environment := by
  simp only [ofEnvironment, bind_eq_ok_iff, readDepth_eq_ok_iff, readFlag_eq_ok_iff]
  constructor
  · rintro ⟨maxDepth, hdepth, conditional, hconditional, matching, hmatch, join, hjoin, ⟨⟩⟩
    exact ⟨hdepth, hconditional, hmatch, hjoin⟩
  · rintro ⟨hdepth, hconditional, hmatch, hjoin⟩
    exact ⟨_, hdepth, _, hconditional, _, hmatch, _, hjoin, rfl⟩

/-- The variables are read in their order, and the first error ends it. -/
theorem ofEnvironment_eq_error_iff : ofEnvironment environment = .error error ↔
    ∃ name, FirstComplaint environment optionVariables name error := by
  -- a variable is read exactly if there is no complaint about it, and then the next one is
  have hdepth {default : Nat} : (∃ depth, readDepth environment default = .ok depth) ↔
      ∀ error, ¬ Complaint environment depthVariable error := by
    simp only [exists_eq_ok_iff, ne_eq, readDepth_eq_error_iff]
  have hflag {name : Text} {default : Bool} (hname : name ∈ flagVariables) :
      (∃ flag, readFlag environment name default = .ok flag) ↔
        ∀ error, ¬ Complaint environment name error := by
    simp only [exists_eq_ok_iff, ne_eq, readFlag_eq_error_iff hname]
  have hend : ¬ ∃ name, FirstComplaint environment [] name error := nofun
  simp only [ofEnvironment, pure, Except.pure, bind_eq_error_iff, reduceCtorEq, and_false,
    exists_false, or_false, exists_and_right, readDepth_eq_error_iff, hdepth,
    readFlag_eq_error_iff conditionalVariable_mem, hflag conditionalVariable_mem,
    readFlag_eq_error_iff matchVariable_mem, hflag matchVariable_mem,
    readFlag_eq_error_iff joinVariable_mem, optionVariables, flagVariables,
    exists_firstComplaint_cons, hend]

theorem exists_denotedBy_iff :
    (∃ options, DenotedBy options environment) ↔ IsValid environment := by
  constructor
  · rintro ⟨options, hdepth, hconditional, hmatch, hjoin⟩
    refine ⟨(exists_setting_iff _).1 ⟨_, hdepth⟩, ?_⟩
    simp only [flagVariables, List.forall_mem_cons, List.not_mem_nil]
    exact ⟨(exists_setting_iff _).1 ⟨_, hconditional⟩, (exists_setting_iff _).1 ⟨_, hmatch⟩,
      (exists_setting_iff _).1 ⟨_, hjoin⟩, nofun⟩
  · rintro ⟨hdepth, hflags⟩
    obtain ⟨maxDepth, hdepth⟩ := (exists_setting_iff 50).2 hdepth
    obtain ⟨conditional, hconditional⟩ :=
      (exists_setting_iff true).2 (hflags _ conditionalVariable_mem)
    obtain ⟨matching, hmatch⟩ := (exists_setting_iff false).2 (hflags _ matchVariable_mem)
    obtain ⟨join, hjoin⟩ := (exists_setting_iff false).2 (hflags _ joinVariable_mem)
    exact ⟨⟨maxDepth, conditional, matching, join⟩, hdepth, hconditional, hmatch, hjoin⟩

theorem DenotedBy.separate {options' : ParserOptions} (h : options.DenotedBy environment)
    (h' : options'.DenotedBy environment') :
    Separate environment environment' options options' where
  maxDepth := h.maxDepth.unique h'.maxDepth fun _ => DepthText.unique
  conditionalAllowed := h.conditionalAllowed.unique h'.conditionalAllowed fun _ => FlagText.unique
  matchAllowed := h.matchAllowed.unique h'.matchAllowed fun _ => FlagText.unique
  joinAllowed := h.joinAllowed.unique h'.joinAllowed fun _ => FlagText.unique

theorem DenotedBy.one_le (h : DenotedBy options environment) : 1 ≤ options.maxDepth := by
  have hdepth := h.maxDepth
  generalize environment depthVariable = held at hdepth
  generalize options.maxDepth = depth at hdepth ⊢
  cases hdepth with
  | unset | empty => decide
  | text _ h => exact h.1

/-! ## Writing the options -/

def flagWord (flag : Bool) : Text :=
  if flag then "true".toList else "false".toList

/-- The environment in which every option is written out. -/
def environmentOf (options : ParserOptions) : Environment := fun name =>
  if name = depthVariable then some (Text.ofNat options.maxDepth)
  else if name = conditionalVariable then some (flagWord options.conditionalAllowed)
  else if name = matchVariable then some (flagWord options.matchAllowed)
  else if name = joinVariable then some (flagWord options.joinAllowed)
  else none

theorem flagText_flagWord (flag : Bool) : FlagText (flagWord flag) flag := by
  cases flag <;> simp only [FlagText, flagWord] <;> decide

theorem setting_flagWord (default flag : Bool) :
    Setting FlagText default (some (flagWord flag)) flag := by
  refine .text ?_ (flagText_flagWord flag)
  cases flag <;> decide

theorem setting_ofNat {default : Nat} (hpositive : 1 ≤ depth)
    (hlimit : decimalLength depth ≤ digitLimit) :
    Setting DepthText default (some (Text.ofNat depth)) depth :=
  .text (isDigits_ofNat depth).1 ⟨hpositive, integerText_ofNat hlimit⟩

theorem denotedBy_environmentOf (hpositive : 1 ≤ options.maxDepth)
    (hlimit : decimalLength options.maxDepth ≤ digitLimit) :
    options.DenotedBy options.environmentOf where
  maxDepth := setting_ofNat hpositive hlimit
  conditionalAllowed := setting_flagWord true options.conditionalAllowed
  matchAllowed := setting_flagWord false options.matchAllowed
  joinAllowed := setting_flagWord false options.joinAllowed

/-! ## The reader of options -/

/-- How the options of an environment are read. -/
structure ReadsOptions (environment : Environment) : Prop where
  accepts_iff : (∃ options, ofEnvironment environment = .ok options) ↔ IsValid environment
  /-- They are those that the variables stand for, with the defaults for the others. -/
  denotes : ∀ options, ofEnvironment environment = .ok options ↔ options.DenotedBy environment
  positive : ∀ options, ofEnvironment environment = .ok options → 1 ≤ options.maxDepth
  /-- Each of them depends on its own variable. -/
  separate : ∀ environment' options options', ofEnvironment environment = .ok options →
    ofEnvironment environment' = .ok options' → Separate environment environment' options options'
  /-- Otherwise the error is that of the first variable with an error. -/
  rejects : ∀ error, ofEnvironment environment = .error error ↔
    ∃ name, FirstComplaint environment optionVariables name error
  /-- Its message begins with the name of that variable. -/
  named : ∀ name error, FirstComplaint environment optionVariables name error →
    name <+: error.message

/-- **Options are read from the valid environments.**  Each option is what its own variable stands
for, or its default; the first variable without a meaning is the one that the error names.  Options
that are written into an environment are read from it again. -/
theorem options_read : (∀ environment, ReadsOptions environment) ∧
    ∀ options : ParserOptions, 1 ≤ options.maxDepth →
      decimalLength options.maxDepth ≤ digitLimit →
      ofEnvironment options.environmentOf = .ok options := by
  refine ⟨fun environment => ?_, fun options hpositive hlimit => ?_⟩
  · exact {
      accepts_iff := by simp only [ofEnvironment_eq_ok_iff, exists_denotedBy_iff]
      denotes := fun _ => ofEnvironment_eq_ok_iff
      positive := fun _ h => (ofEnvironment_eq_ok_iff.1 h).one_le
      separate := fun _ _ _ h h' =>
        (ofEnvironment_eq_ok_iff.1 h).separate (ofEnvironment_eq_ok_iff.1 h')
      rejects := fun _ => ofEnvironment_eq_error_iff
      named := fun _ _ h => h.complaint.begins_message }
  · exact ofEnvironment_eq_ok_iff.2 (denotedBy_environmentOf hpositive hlimit)

/-- Options that are written out and read again, and two words that are for neither yes nor no, the
first of which is the one that is named. -/
theorem options_read_written :
    let options : ParserOptions := { maxDepth := 7, matchAllowed := true }
    let environment : Environment := fun name =>
      if name ∈ [matchVariable, joinVariable] then some "maybe".toList else none
    let error := OptionsError.notABoolean matchVariable "maybe".toList
    1 ≤ options.maxDepth ∧ decimalLength options.maxDepth ≤ digitLimit ∧
      ofEnvironment options.environmentOf = .ok options ∧
      ofEnvironment environment = .error error ∧
      ∃ name, FirstComplaint environment optionVariables name error := by
  intro options environment error
  have hpositive : 1 ≤ options.maxDepth := by decide
  have hlimit : decimalLength options.maxDepth ≤ digitLimit := by decide
  have herror : ofEnvironment environment = .error error := by rfl
  exact ⟨hpositive, hlimit, options_read.2 options hpositive hlimit, herror,
    ((options_read.1 environment).rejects error).1 herror⟩

end ParserOptions

end ExprLang
