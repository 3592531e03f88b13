import ExprLang.Proofs.EvaluationFailures
import Mathlib.Data.List.Forall2

/-!
# The laws of equality inside containers

Values that hold no others are equal if the same thing tells both apart.  Containers are compared
item by item, and of two dictionaries of one size every entry of the first one has to have an equal
one in the second one.  This is asked in one direction only, so that it takes the keys of a
dictionary, of which no two are equal, for the equality of dictionaries to be symmetric.

* `identity?` — what tells a value apart that holds no others.
* `EqualStep` — one step of a comparison, with `equal_iff_equalStep`.
* `HasDistinctKeys` — no dictionary in a value has two equal keys; `hasDistinctKeys_ofEntries` —
  those that are built by insertion are of this kind.
* `equal_trans`, `equal_symm`, `equal_self` — equality is transitive and symmetric, and whatever
  holds nothing that is not a number equals itself.
-/

namespace ExprLang.Value

/-! ## Values that hold no others -/

/-- What tells a value apart that holds no others.  What is not a number is told apart by its mark,
if it has one. -/
inductive Identity where
  | null
  | undefined
  | string (text : Text)
  | bytes (content : List UInt8)
  | host (identity : Nat)
  | number (x : Extended)
  | nan (mark : Nat)
  deriving DecidableEq

def identity? : Value → Option Identity
  | .null => some .null
  | .undefined => some .undefined
  | .string text => some (.string text)
  | .bytes content => some (.bytes content)
  | .host object _ => some (.host object.identity)
  | .double (.nan mark) => mark.map .nan
  | .list _ | .tuple _ | .dict _ => none
  | v => v.numeric?.map .number

section

variable {v w : Value} {i : Identity}

theorem equal_eq_of_not_isContainer (h : v.isContainer = false) :
    v.equal w = match v.identity?, w.identity? with
      | some i, some j => decide (i = j)
      | _, _ => false := by
  -- Doubles are taken apart, as what is not a number and the infinities have cases of their own.
  rcases v with _ | _ | _ | ⟨(_ | _) | (_ | _) | _⟩ | _ | _ | _ | _ | _ | _ | _ <;>
    rcases w with _ | _ | _ | ⟨(_ | _) | (_ | _) | _⟩ | _ | _ | _ | _ | _ | _ | _ <;>
    simp [isContainer, equal, identity?, numeric?, Double.extended?] at h ⊢

theorem isContainer_of_identity? (h : v.identity? = some i) : v.isContainer = false := by
  cases v with
  | list | tuple | dict => cases h
  | _ => rfl

end

/-! ## One step of a comparison -/

theorem equalItems_iff {xs ys : List Value} :
    equalItems xs ys = true ↔ List.Forall₂ (fun x y => x.equal y = true) xs ys := by
  induction xs generalizing ys with
  | nil => cases ys <;> simp [equalItems]
  | cons x xs ih => cases ys <;> simp [equalItems, ih]

theorem entriesAmong_iff {es fs : List (Value × Value)} :
    entriesAmong es fs = true ↔
      ∀ e ∈ es, ∃ f ∈ fs, e.1.equal f.1 = true ∧ e.2.equal f.2 = true := by
  induction es with
  | nil => simp [entriesAmong]
  | cons e es ih => simp [entriesAmong, ih]

/-- The ways in which two values can be equal, by the equality of the values right inside of
them. -/
inductive EqualStep : Value → Value → Prop where
  | list {xs ys : List Value} :
    List.Forall₂ (fun x y => x.equal y = true) xs ys → EqualStep (.list xs) (.list ys)
  | tuple {xs ys : List Value} :
    List.Forall₂ (fun x y => x.equal y = true) xs ys → EqualStep (.tuple xs) (.tuple ys)
  | dict {es fs : List (Value × Value)} : es.length = fs.length →
    (∀ e ∈ es, ∃ f ∈ fs, e.1.equal f.1 = true ∧ e.2.equal f.2 = true) →
    EqualStep (.dict es) (.dict fs)
  | simple {v w : Value} {i : Identity} : v.identity? = some i → w.identity? = some i →
    EqualStep v w

theorem equal_iff_equalStep {v w : Value} : v.equal w = true ↔ EqualStep v w := by
  constructor
  · intro h
    cases hv : v.isContainer with
    | false =>
      rw [equal_eq_of_not_isContainer hv] at h
      split at h
      · rename_i i j hi hj
        exact .simple hi (by rw [hj, of_decide_eq_true h])
      · cases h
    | true =>
      cases v with
      | list xs =>
        cases w with
        | list ys => exact .list (equalItems_iff.1 (by rwa [equal] at h))
        | _ => simp [equal, numeric?] at h
      | tuple xs =>
        cases w with
        | tuple ys => exact .tuple (equalItems_iff.1 (by rwa [equal] at h))
        | _ => simp [equal, numeric?] at h
      | dict es =>
        cases w with
        | dict fs =>
          rw [equal, Bool.and_eq_true, decide_eq_true_eq, entriesAmong_iff] at h
          exact .dict h.1 h.2
        | _ => simp [equal, numeric?] at h
      | _ => cases hv
  · intro h
    cases h with
    | list h =>
      rw [equal]
      exact equalItems_iff.2 h
    | tuple h =>
      rw [equal]
      exact equalItems_iff.2 h
    | dict hlength h =>
      rw [equal, Bool.and_eq_true, decide_eq_true_eq]
      exact ⟨hlength, entriesAmong_iff.2 h⟩
    | simple hv hw =>
      rw [equal_eq_of_not_isContainer (isContainer_of_identity? hv), hv, hw]
      exact decide_eq_true rfl

/-! ## Induction on the contents of a value -/

theorem contents_of_not_isContainer {v : Value} (h : v.isContainer = false) : v.contents = [] := by
  cases v with
  | list | tuple | dict => cases h
  | _ => rfl

/-- Induction on a value, where the items of a container and the keys and values of a dictionary
count as its contents. -/
theorem induction_contents {P : Value → Prop} (node : ∀ v, (∀ item ∈ v.contents, P item) → P v)
    (v : Value) : P v := by
  induction hsize : sizeOf v using Nat.strongRecOn generalizing v with
  | ind size ih =>
    subst hsize
    exact node v fun item hitem => ih _ (sizeOf_content_lt hitem) item rfl

theorem key_mem_contents {es : List (Value × Value)} {e : Value × Value} (h : e ∈ es) :
    e.1 ∈ (Value.dict es).contents :=
  List.mem_flatMap.2 ⟨e, h, List.mem_cons_self⟩

theorem value_mem_contents {es : List (Value × Value)} {e : Value × Value} (h : e ∈ es) :
    e.2 ∈ (Value.dict es).contents :=
  List.mem_flatMap.2 ⟨e, h, List.mem_cons_of_mem _ List.mem_cons_self⟩

/-! ## Transitivity -/

section

variable {α : Type} {R S T : α → α → Prop} {xs ys zs : List α}

/-- Two lists that are related item by item stay so, if what relates their items relates them in
another way. -/
theorem forall₂_of_mem (h : List.Forall₂ R xs ys) (hRS : ∀ x ∈ xs, ∀ y ∈ ys, R x y → S x y) :
    List.Forall₂ S xs ys := by
  induction h with
  | nil => exact .nil
  | cons hxy _ ih =>
    refine .cons (hRS _ List.mem_cons_self _ List.mem_cons_self hxy) (ih fun x hx y hy => ?_)
    exact hRS x (List.mem_cons_of_mem _ hx) y (List.mem_cons_of_mem _ hy)

theorem forall₂_trans (hxy : List.Forall₂ R xs ys) (hyz : List.Forall₂ S ys zs)
    (hRS : ∀ x ∈ xs, ∀ y z, R x y → S y z → T x z) : List.Forall₂ T xs zs := by
  induction hxy generalizing zs with
  | nil =>
    cases hyz
    exact .nil
  | cons hfirst _ ih =>
    cases hyz with
    | cons hsecond hyz =>
      refine .cons (hRS _ List.mem_cons_self _ _ hfirst hsecond) (ih hyz fun x hx => ?_)
      exact hRS x (List.mem_cons_of_mem _ hx)

end

theorem equal_trans {u v w : Value} (huv : u.equal v = true) (hvw : v.equal w = true) :
    u.equal w = true := by
  induction u using induction_contents generalizing v w with
  | node u ih =>
    cases equal_iff_equalStep.1 huv with
    | list hitems =>
      cases equal_iff_equalStep.1 hvw with
      | list hitems' =>
        exact equal_iff_equalStep.2 (.list (forall₂_trans hitems hitems'
          fun x hx y z => ih x hx))
      | simple hi => cases hi
    | tuple hitems =>
      cases equal_iff_equalStep.1 hvw with
      | tuple hitems' =>
        exact equal_iff_equalStep.2 (.tuple (forall₂_trans hitems hitems'
          fun x hx y z => ih x hx))
      | simple hi => cases hi
    | dict hlength hentries =>
      cases equal_iff_equalStep.1 hvw with
      | dict hlength' hentries' =>
        refine equal_iff_equalStep.2 (.dict (hlength.trans hlength') fun e he => ?_)
        obtain ⟨f, hf, hkey, hvalue⟩ := hentries e he
        obtain ⟨g, hg, hkey', hvalue'⟩ := hentries' f hf
        exact ⟨g, hg, ih _ (key_mem_contents he) hkey hkey',
          ih _ (value_mem_contents he) hvalue hvalue'⟩
      | simple hi => cases hi
    | simple hi hj =>
      cases equal_iff_equalStep.1 hvw with
      | list | tuple | dict => cases hj
      | simple hj' hk =>
        cases hj.symm.trans hj'
        exact equal_iff_equalStep.2 (.simple hi hk)

/-! ## Symmetry -/

/-- In no dictionary, be it the value itself or one that it holds at some depth, are two keys
equal. -/
def HasDistinctKeys (v : Value) : Prop :=
  ∀ es, Within (.dict es) v → es.Pairwise fun e e' => e.1.equal e'.1 = false

theorem HasDistinctKeys.content {v item : Value} (h : v.HasDistinctKeys)
    (hitem : item ∈ v.contents) : item.HasDistinctKeys :=
  fun es hwithin => h es (.inside hitem hwithin)

/-- If every item of a list has a partner in a list that is not longer, and no two of them have the
same one, then every item of the other list is a partner. -/
theorem exists_partner {α β : Type} {R : α → β → Prop} {xs : List α} {ys : List β}
    (hpartner : ∀ x ∈ xs, ∃ y ∈ ys, R x y)
    (hapart : xs.Pairwise fun x x' => ∀ y ∈ ys, R x y → ¬ R x' y)
    (hlength : ys.length ≤ xs.length) : ∀ y ∈ ys, ∃ x ∈ xs, R x y := by
  induction xs generalizing ys with
  | nil =>
    rw [List.length_nil, Nat.le_zero, List.length_eq_zero_iff] at hlength
    simp [hlength]
  | cons x xs ih =>
    obtain ⟨hx, hapart⟩ := List.pairwise_cons.1 hapart
    obtain ⟨y, hy, hxy⟩ := hpartner x List.mem_cons_self
    obtain ⟨before, after, rfl⟩ := List.append_of_mem hy
    -- The others have their partners beside the one of the first item.
    have hrest : ∀ y' ∈ before ++ after, y' ∈ before ++ y :: after := by
      intro y' hy'
      rcases List.mem_append.1 hy' with h | h
      · exact List.mem_append_left _ h
      · exact List.mem_append_right _ (List.mem_cons_of_mem _ h)
    have hothers : ∀ y' ∈ before ++ after, ∃ x' ∈ xs, R x' y' := by
      refine ih (fun x' hx' => ?_) (hapart.imp fun h y' hy' => h y' (hrest y' hy')) ?_
      · obtain ⟨y', hy', hxy'⟩ := hpartner x' (List.mem_cons_of_mem _ hx')
        refine ⟨y', ?_, hxy'⟩
        rcases List.mem_append.1 hy' with h | h
        · exact List.mem_append_left _ h
        · rcases List.mem_cons.1 h with rfl | h
          · exact absurd hxy' (hx x' hx' y' hy' hxy)
          · exact List.mem_append_right _ h
      · simp only [List.length_append, List.length_cons] at hlength ⊢
        omega
    intro y' hy'
    rcases List.mem_append.1 hy' with h | h
    · obtain ⟨x', hx', hxy'⟩ := hothers y' (List.mem_append_left _ h)
      exact ⟨x', List.mem_cons_of_mem _ hx', hxy'⟩
    · rcases List.mem_cons.1 h with rfl | h
      · exact ⟨x, List.mem_cons_self, hxy⟩
      · obtain ⟨x', hx', hxy'⟩ := hothers y' (List.mem_append_right _ h)
        exact ⟨x', List.mem_cons_of_mem _ hx', hxy'⟩

theorem equal_symm {v w : Value} (hv : v.HasDistinctKeys) (hw : w.HasDistinctKeys)
    (h : v.equal w = true) : w.equal v = true := by
  induction v using induction_contents generalizing w with
  | node v ih =>
    have hcontents : ∀ x ∈ v.contents, ∀ y ∈ w.contents, x.equal y = true → y.equal x = true :=
      fun x hx y hy => ih x hx (hv.content hx) (hw.content hy)
    cases equal_iff_equalStep.1 h with
    | list hitems =>
      exact equal_iff_equalStep.2 (.list (forall₂_of_mem hitems hcontents).flip)
    | tuple hitems =>
      exact equal_iff_equalStep.2 (.tuple (forall₂_of_mem hitems hcontents).flip)
    | @dict es fs hlength hentries =>
      have hsymm : ∀ e ∈ es, ∀ f ∈ fs, e.1.equal f.1 = true → f.1.equal e.1 = true :=
        fun e he f hf => hcontents _ (key_mem_contents he) _ (key_mem_contents hf)
      have hapart : es.Pairwise fun e e' => ∀ f ∈ fs,
          e.1.equal f.1 = true ∧ e.2.equal f.2 = true →
            ¬ (e'.1.equal f.1 = true ∧ e'.2.equal f.2 = true) := by
        refine (hv es .self).imp_of_mem fun {e e'} he he' hkeys f hf hef hef' => ?_
        have hequal := equal_trans hef.1 (hsymm e' he' f hf hef'.1)
        rw [hkeys] at hequal
        cases hequal
      refine equal_iff_equalStep.2 (.dict hlength.symm fun f hf => ?_)
      obtain ⟨e, he, hkey, hvalue⟩ :=
        exists_partner hentries hapart (Nat.le_of_eq hlength.symm) f hf
      exact ⟨e, he, hsymm e he f hf hkey,
        hcontents _ (value_mem_contents he) _ (value_mem_contents hf) hvalue⟩
    | simple hi hj => exact equal_iff_equalStep.2 (.simple hj hi)

theorem equal_comm {v w : Value} (hv : v.HasDistinctKeys) (hw : w.HasDistinctKeys) :
    v.equal w = w.equal v :=
  Bool.eq_iff_iff.2 ⟨equal_symm hv hw, equal_symm hw hv⟩

theorem HasDistinctKeys.of_contents {v : Value}
    (hkeys : ∀ es, v = .dict es → es.Pairwise fun e e' => e.1.equal e'.1 = false)
    (hcontents : ∀ item ∈ v.contents, item.HasDistinctKeys) : v.HasDistinctKeys := by
  intro es hwithin
  cases hwithin with
  | self => exact hkeys es rfl
  | inside hitem hwithin => exact hcontents _ hitem es hwithin

theorem hasDistinctKeys_of_not_isContainer {v : Value} (h : v.isContainer = false) :
    v.HasDistinctKeys := by
  refine .of_contents ?_ (by simp [contents_of_not_isContainer h])
  rintro es rfl
  cases h

/-! ### Dictionaries that are built by insertion -/

/-- What holds of the entries of a dictionary and of a new entry holds of the entries with the new
one among them. -/
theorem forall_mem_insert {P Q : Value → Prop} {key value : Value} {es : List (Value × Value)}
    (hkey : P key) (hvalue : Q value) (hes : ∀ e ∈ es, P e.1 ∧ Q e.2) :
    ∀ e ∈ insert key value es, P e.1 ∧ Q e.2 := by
  induction es with
  | nil =>
    intro e he
    rw [insert, List.mem_singleton] at he
    subst he
    exact ⟨hkey, hvalue⟩
  | cons first es ih =>
    obtain ⟨hfirst, hes⟩ := List.forall_mem_cons.1 hes
    rw [insert]
    split
    · exact List.forall_mem_cons.2 ⟨⟨hfirst.1, hvalue⟩, hes⟩
    · exact List.forall_mem_cons.2 ⟨hfirst, ih hes⟩

theorem hasDistinctKeys_dict {es : List (Value × Value)}
    (hkeys : es.Pairwise fun e e' => e.1.equal e'.1 = false)
    (hcontents : ∀ e ∈ es, e.1.HasDistinctKeys ∧ e.2.HasDistinctKeys) :
    (Value.dict es).HasDistinctKeys := by
  refine .of_contents (fun fs hfs => ?_) fun item hitem => ?_
  · cases hfs
    exact hkeys
  · obtain ⟨e, he, hitem⟩ := List.mem_flatMap.1 hitem
    simp only [List.mem_cons, List.not_mem_nil, or_false] at hitem
    rcases hitem with rfl | rfl
    · exact (hcontents e he).1
    · exact (hcontents e he).2

theorem pairwise_insert {key value : Value} {es : List (Value × Value)}
    (hkeys : es.Pairwise fun e e' => e.1.equal e'.1 = false) (hkey : key.HasDistinctKeys)
    (hes : ∀ e ∈ es, e.1.HasDistinctKeys) :
    (insert key value es).Pairwise fun e e' => e.1.equal e'.1 = false := by
  induction es with
  | nil => exact List.pairwise_singleton _ _
  | cons first es ih =>
    obtain ⟨hfirst, hkeys⟩ := List.pairwise_cons.1 hkeys
    obtain ⟨hfirstKeys, hes⟩ := List.forall_mem_cons.1 hes
    rw [insert]
    split
    · exact List.pairwise_cons.2 ⟨hfirst, hkeys⟩
    · rename_i hne
      have hnew : first.1.equal key = false := by
        rw [equal_comm hfirstKeys hkey]
        exact Bool.eq_false_iff.2 hne
      refine List.pairwise_cons.2 ⟨fun e he => ?_, ih hkeys hes⟩
      exact (forall_mem_insert (P := fun k => first.1.equal k = false) (Q := fun _ => True) hnew
        trivial (fun e he => ⟨hfirst e he, trivial⟩) e he).1

/-- A dictionary that is built from entries, one after the other, has no two equal keys. -/
theorem hasDistinctKeys_ofEntries {entries : List (Value × Value)}
    (h : ∀ e ∈ entries, e.1.HasDistinctKeys ∧ e.2.HasDistinctKeys) :
    (ofEntries entries).HasDistinctKeys := by
  suffices hfold : ∀ es : List (Value × Value), (∀ e ∈ es, e.1.HasDistinctKeys ∧
      e.2.HasDistinctKeys) → (es.Pairwise fun e e' => e.1.equal e'.1 = false) →
      (Value.dict
        (entries.foldl (fun dict entry => insert entry.1 entry.2 dict) es)).HasDistinctKeys
    from hfold [] (fun _ he => absurd he List.not_mem_nil) .nil
  induction entries with
  | nil => exact fun es hes hkeys => hasDistinctKeys_dict hkeys hes
  | cons entry entries ih =>
    obtain ⟨hentry, h⟩ := List.forall_mem_cons.1 h
    intro es hes hkeys
    refine ih h _ (forall_mem_insert hentry.1 hentry.2 hes) ?_
    exact pairwise_insert hkeys hentry.1 fun e he => (hes e he).1

/-! ## Reflexivity -/

/-- What is not a number is neither the value nor inside of it. -/
def IsNanFree (v : Value) : Prop :=
  ∀ mark, ¬ Within (.double (.nan mark)) v

theorem IsNanFree.content {v item : Value} (h : v.IsNanFree) (hitem : item ∈ v.contents) :
    item.IsNanFree :=
  fun mark hwithin => h mark (.inside hitem hwithin)

theorem IsNanFree.of_contents {v : Value} (hnan : ∀ mark, v ≠ .double (.nan mark))
    (hcontents : ∀ item ∈ v.contents, item.IsNanFree) : v.IsNanFree := by
  intro mark hwithin
  cases hwithin with
  | self => exact hnan mark rfl
  | inside hitem hwithin => exact hcontents _ hitem mark hwithin

theorem isNanFree_of_not_isContainer {v : Value} (h : v.isContainer = false)
    (hnan : ∀ mark, v ≠ .double (.nan mark)) : v.IsNanFree :=
  .of_contents hnan (by simp [contents_of_not_isContainer h])

theorem equal_self {v : Value} (h : v.IsNanFree) : v.equal v = true := by
  induction v using induction_contents with
  | node v ih =>
    have hcontents : ∀ item ∈ v.contents, item.equal item = true :=
      fun item hitem => ih item hitem (h.content hitem)
    have hitems : ∀ items : List Value, (∀ item ∈ items, item.equal item = true) →
        List.Forall₂ (fun x y => x.equal y = true) items items :=
      fun _ h => List.forall₂_same.2 fun item hitem => h item hitem
    cases v with
    | list items => exact equal_iff_equalStep.2 (.list (hitems items hcontents))
    | tuple items => exact equal_iff_equalStep.2 (.tuple (hitems items hcontents))
    | dict es =>
      refine equal_iff_equalStep.2 (.dict rfl fun e he => ⟨e, he, ?_, ?_⟩)
      · exact hcontents _ (key_mem_contents he)
      · exact hcontents _ (value_mem_contents he)
    | double x =>
      rcases x with mark | (_ | _) | _
      · exact absurd .self (h mark)
      all_goals exact equal_iff_equalStep.2 (.simple rfl rfl)
    | _ => exact equal_iff_equalStep.2 (.simple rfl rfl)

end ExprLang.Value
