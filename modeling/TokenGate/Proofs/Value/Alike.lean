import Mathlib.Data.String.Basic
import TokenGate.Json.Writer

/-!
# Values that are alike

Two values are alike if they differ in the order of the fields of their objects only. Putting the
fields of every object into the order of their names makes alike values equal, and it makes no
others equal if no object has a key twice: what is put into its place among fields without its key
can be told from the result.
-/

namespace TokenGate.Value

mutual

/-- There are no doubles in a value, and no object in it has a key twice. -/
def Discrete : Value → Prop
  | float _ => False
  | list items => DiscreteItems items
  | object fields => (Entries.keys fields).Nodup ∧ DiscreteFields fields
  | _ => True

/-- The items of a list are discrete. -/
def DiscreteItems : List Value → Prop
  | [] => True
  | v :: rest => Discrete v ∧ DiscreteItems rest

/-- The values of fields are discrete. -/
def DiscreteFields : List (String × Value) → Prop
  | [] => True
  | (_, v) :: rest => Discrete v ∧ DiscreteFields rest

end

mutual

/-- Two values are the same but for the order of the fields in their objects. -/
inductive Alike : Value → Value → Prop
  | null : Alike null null
  | bool (b : Bool) : Alike (bool b) (bool b)
  | int (n : Int) : Alike (int n) (int n)
  | float (x : Number.Double) : Alike (float x) (float x)
  | str (s : String) : Alike (str s) (str s)
  | list {items others : List Value} : AlikeItems items others → Alike (list items) (list others)
  | object {fields others : Fields} : AlikeFields fields others →
      Alike (object fields) (object others)

/-- Two lists have items that are alike, in the same order. -/
inductive AlikeItems : List Value → List Value → Prop
  | nil : AlikeItems [] []
  | cons {v w : Value} {rest others : List Value} : Alike v w → AlikeItems rest others →
      AlikeItems (v :: rest) (w :: others)

/-- Each field of the first object is found somewhere in the second one, under the same key and
with a value that is alike, and nothing else is there. -/
inductive AlikeFields : List (String × Value) → List (String × Value) → Prop
  | nil : AlikeFields [] []
  | cons {key : String} {v w : Value} {rest before after : List (String × Value)} : Alike v w →
      AlikeFields rest (before ++ after) →
      AlikeFields ((key, v) :: rest) (before ++ (key, w) :: after)

end

mutual

theorem Alike.refl (v : Value) : v.Alike v := by
  cases v with
  | null => exact .null
  | bool b => exact .bool b
  | int n => exact .int n
  | float x => exact .float x
  | str s => exact .str s
  | list items => exact .list (AlikeItems.refl items)
  | object fields => exact .object (AlikeFields.refl fields)

theorem AlikeItems.refl (items : List Value) : AlikeItems items items := by
  cases items with
  | nil => exact .nil
  | cons v rest => exact .cons (Alike.refl v) (AlikeItems.refl rest)

theorem AlikeFields.refl (fields : List (String × Value)) : AlikeFields fields fields := by
  cases fields with
  | nil => exact .nil
  | cons field rest =>
    obtain ⟨key, v⟩ := field
    exact @AlikeFields.cons key v v rest [] rest (Alike.refl v) (AlikeFields.refl rest)

end

section Sorting

variable {key : String} {value : Value} {fields : Fields}

theorem perm_insertSorted (key : String) (value : Value) (fields : Fields) :
    (insertSorted key value fields).Perm ((key, value) :: fields) := by
  induction fields with
  | nil => exact .refl _
  | cons field rest ih =>
    obtain ⟨k, v⟩ := field
    by_cases first : key < k
    · rw [insertSorted, if_pos first]
    · rw [insertSorted, if_neg first]
      exact (ih.cons (k, v)).trans (.swap ..)

/-- The keys of an object are the same after its fields have been ordered. -/
theorem perm_keys_sortedFields (fields : Fields) :
    (Entries.keys (sortedFields fields)).Perm (Entries.keys fields) := by
  induction fields with
  | nil => exact .refl _
  | cons field rest ih =>
    obtain ⟨k, v⟩ := field
    rw [sortedFields, Entries.keys_cons]
    exact ((perm_insertSorted k _ _).map Prod.fst).trans (ih.cons k)

/-- The order in which two fields are put into their places does not matter. -/
theorem insertSorted_comm {key key' : String} (h : key ≠ key') (v v' : Value) (fields : Fields) :
    insertSorted key v (insertSorted key' v' fields) =
      insertSorted key' v' (insertSorted key v fields) := by
  induction fields with
  | nil =>
    rcases lt_or_gt_of_ne h with before | after
    · simp only [insertSorted, if_pos before, if_neg before.asymm]
    · simp only [insertSorted, if_pos after, if_neg after.asymm]
  | cons field rest ih =>
    obtain ⟨k, w⟩ := field
    by_cases first : key < k <;> by_cases first' : key' < k
    · rcases lt_or_gt_of_ne h with before | after
      · simp only [insertSorted, if_pos first, if_pos first', if_pos before, if_neg before.asymm]
      · simp only [insertSorted, if_pos first, if_pos first', if_pos after, if_neg after.asymm]
    · have apart : ¬ key' < key := fun before => first' (before.trans first)
      simp only [insertSorted, if_pos first, if_neg first', if_neg apart]
    · have apart : ¬ key < key' := fun before => first (before.trans first')
      simp only [insertSorted, if_neg first, if_pos first', if_neg apart]
    · simp only [insertSorted, if_neg first, if_neg first', ih]

theorem sortedFields_middle {before : Fields} (h : key ∉ Entries.keys before) (after : Fields) :
    sortedFields (before ++ (key, value) :: after) =
      insertSorted key value.sorted (sortedFields (before ++ after)) := by
  induction before with
  | nil => rfl
  | cons field rest ih =>
    obtain ⟨k, v⟩ := field
    rw [Entries.keys_cons, List.mem_cons, not_or] at h
    rw [List.cons_append, sortedFields, ih h.2, List.cons_append, sortedFields]
    exact insertSorted_comm (Ne.symm h.1) _ _ _

/-- Taking out the field that has been put in leaves the fields as they were. -/
theorem filter_insertSorted (h : key ∉ Entries.keys fields) :
    (insertSorted key value fields).filter (fun field => field.1 ≠ key) = fields := by
  have others : ∀ rest : Fields, key ∉ Entries.keys rest →
      rest.filter (fun field => field.1 ≠ key) = rest := by
    intro rest hrest
    rw [List.filter_eq_self]
    intro field hfield
    have other : field.1 ≠ key := fun same => hrest (same ▸ List.mem_map_of_mem hfield)
    simp [other]
  induction fields with
  | nil => simp [insertSorted]
  | cons field rest ih =>
    obtain ⟨k, v⟩ := field
    by_cases first : key < k
    · rw [insertSorted, if_pos first, List.filter_cons_of_neg (by simp), others _ h]
    · rw [Entries.keys_cons, List.mem_cons, not_or] at h
      rw [insertSorted, if_neg first, List.filter_cons_of_pos (by simp [Ne.symm h.1]), ih h.2]

theorem get?_insertSorted (h : key ∉ Entries.keys fields) :
    Entries.get? key (insertSorted key value fields) = some value := by
  induction fields with
  | nil => simp [insertSorted, Entries.get?]
  | cons field rest ih =>
    obtain ⟨k, v⟩ := field
    rw [Entries.keys_cons, List.mem_cons, not_or] at h
    by_cases first : key < k
    · simp [insertSorted, first, Entries.get?]
    · simp [insertSorted, first, Entries.get?, Ne.symm h.1, ih h.2]

/-- A field that has been put among fields without its key can be told from the result. -/
theorem insertSorted_inj {fields' : Fields} {value' : Value} (h : key ∉ Entries.keys fields)
    (h' : key ∉ Entries.keys fields')
    (heq : insertSorted key value fields = insertSorted key value' fields') :
    value = value' ∧ fields = fields' := by
  constructor
  · have found : Entries.get? key (insertSorted key value fields) = some value :=
      get?_insertSorted h
    rw [heq, get?_insertSorted h'] at found
    exact (Option.some.inj found).symm
  · calc fields
      _ = (insertSorted key value fields).filter (fun field => field.1 ≠ key) :=
        (filter_insertSorted h).symm
      _ = (insertSorted key value' fields').filter (fun field => field.1 ≠ key) := by rw [heq]
      _ = fields' := filter_insertSorted h'

theorem nodup_keys_middle {before after : Fields} :
    (Entries.keys (before ++ (key, value) :: after)).Nodup ↔
      key ∉ Entries.keys (before ++ after) ∧ (Entries.keys (before ++ after)).Nodup := by
  simp only [Entries.keys, List.map_append, List.map_cons]
  rw [List.perm_middle.nodup_iff, List.nodup_cons]

theorem discreteFields_iff : DiscreteFields fields ↔ ∀ field ∈ fields, field.2.Discrete := by
  induction fields with
  | nil => simp [DiscreteFields]
  | cons field rest ih =>
    obtain ⟨k, v⟩ := field
    rw [DiscreteFields, ih, List.forall_mem_cons]

theorem discreteFields_middle {before after : Fields} :
    DiscreteFields (before ++ (key, value) :: after) ↔
      value.Discrete ∧ DiscreteFields (before ++ after) := by
  simp only [discreteFields_iff, List.forall_mem_append, List.forall_mem_cons]
  exact and_left_comm

end Sorting

mutual

/-- Values that are alike are equal once they have been ordered. -/
theorem sorted_eq_of_alike {v w : Value} (h : v.Alike w) (hw : w.Discrete) :
    v.sorted = w.sorted := by
  cases h with
  | list items => rw [sorted, sorted, sortedItems_eq_of_alike items hw]
  | object fields => rw [sorted, sorted, sortedFields_eq_of_alike fields hw.1 hw.2]
  | _ => rfl

theorem sortedItems_eq_of_alike {items others : List Value} (h : AlikeItems items others)
    (hw : DiscreteItems others) : sortedItems items = sortedItems others := by
  cases h with
  | nil => rfl
  | cons first rest =>
    rw [sortedItems, sortedItems, sorted_eq_of_alike first hw.1, sortedItems_eq_of_alike rest hw.2]

theorem sortedFields_eq_of_alike {fields others : Fields} (h : AlikeFields fields others)
    (distinct : (Entries.keys others).Nodup) (hw : DiscreteFields others) :
    sortedFields fields = sortedFields others := by
  cases h with
  | nil => rfl
  | @cons key v w rest before after first others =>
    obtain ⟨new, distinct'⟩ := nodup_keys_middle.1 distinct
    obtain ⟨hw₁, hw₂⟩ := discreteFields_middle.1 hw
    rw [Entries.keys, List.map_append, List.mem_append, not_or] at new
    rw [sortedFields_middle new.1, sortedFields, sorted_eq_of_alike first hw₁,
      sortedFields_eq_of_alike others distinct' hw₂]

end

mutual

/-- Values without repeated keys that are equal once they have been ordered are alike. -/
theorem alike_of_sorted_eq {v w : Value} (hv : v.Discrete) (hw : w.Discrete)
    (h : v.sorted = w.sorted) : v.Alike w := by
  cases v with
  | list items =>
    cases w with
    | list others =>
      rw [sorted, sorted, list.injEq] at h
      exact .list (alikeItems_of_sorted_eq hv hw h)
    | _ => cases h
  | object fields =>
    cases w with
    | object others =>
      rw [sorted, sorted, object.injEq] at h
      exact .object (alikeFields_of_sorted_eq hv.1 hw.1 hv.2 hw.2 h)
    | _ => cases h
  | null =>
    cases w with
    | null => exact .null
    | _ => cases h
  | bool b =>
    cases w with
    | bool b' =>
      cases h
      exact .bool b
    | _ => cases h
  | int n =>
    cases w with
    | int n' =>
      cases h
      exact .int n
    | _ => cases h
  | str s =>
    cases w with
    | str s' =>
      cases h
      exact .str s
    | _ => cases h
  | float x => exact hv.elim

theorem alikeItems_of_sorted_eq {items others : List Value} (hv : DiscreteItems items)
    (hw : DiscreteItems others) (h : sortedItems items = sortedItems others) :
    AlikeItems items others := by
  cases items with
  | nil =>
    cases others with
    | nil => exact .nil
    | cons w others => cases h
  | cons v rest =>
    cases others with
    | nil => cases h
    | cons w others =>
      rw [sortedItems, sortedItems, List.cons.injEq] at h
      exact .cons (alike_of_sorted_eq hv.1 hw.1 h.1) (alikeItems_of_sorted_eq hv.2 hw.2 h.2)

theorem alikeFields_of_sorted_eq {fields others : Fields} (distinct : (Entries.keys fields).Nodup)
    (distinct' : (Entries.keys others).Nodup) (hv : DiscreteFields fields)
    (hw : DiscreteFields others) (h : sortedFields fields = sortedFields others) :
    AlikeFields fields others := by
  cases fields with
  | nil =>
    have none : Entries.keys others = [] := (h ▸ perm_keys_sortedFields others).nil_eq.symm
    rw [Entries.keys, List.map_eq_nil_iff] at none
    rw [none]
    exact .nil
  | cons field rest =>
    obtain ⟨key, v⟩ := field
    have found : key ∈ Entries.keys others := by
      rw [← (perm_keys_sortedFields others).mem_iff, ← h, (perm_keys_sortedFields _).mem_iff]
      exact List.mem_cons_self
    obtain ⟨⟨key', w⟩, member, rfl⟩ := List.mem_map.1 found
    obtain ⟨before, after, rfl⟩ := List.append_of_mem member
    obtain ⟨new, distinct'⟩ := nodup_keys_middle.1 distinct'
    obtain ⟨hw₁, hw₂⟩ := discreteFields_middle.1 hw
    rw [Entries.keys_cons, List.nodup_cons] at distinct
    have before_new := new
    rw [Entries.keys, List.map_append, List.mem_append, not_or] at before_new
    rw [sortedFields_middle before_new.1, sortedFields] at h
    obtain ⟨first, more⟩ := insertSorted_inj (mt (perm_keys_sortedFields rest).mem_iff.1 distinct.1)
      (mt (perm_keys_sortedFields _).mem_iff.1 new) h
    exact .cons (alike_of_sorted_eq hv.1 hw₁ first)
      (alikeFields_of_sorted_eq distinct.2 distinct' hv.2 hw₂ more)

end

theorem sorted_eq_iff {v w : Value} (hv : v.Discrete) (hw : w.Discrete) :
    v.sorted = w.sorted ↔ v.Alike w :=
  ⟨alike_of_sorted_eq hv hw, fun h => sorted_eq_of_alike h hw⟩

mutual

/-- Discrete values remain discrete when they are ordered. -/
theorem discrete_sorted {v : Value} (h : v.Discrete) : v.sorted.Discrete := by
  cases v with
  | list items => exact discreteItems_sorted h
  | object fields =>
    exact ⟨(perm_keys_sortedFields fields).nodup_iff.2 h.1, discreteFields_sorted h.2⟩
  | _ => exact h

theorem discreteItems_sorted {items : List Value} (h : DiscreteItems items) :
    DiscreteItems (sortedItems items) := by
  cases items with
  | nil => exact h
  | cons v rest => exact ⟨discrete_sorted h.1, discreteItems_sorted h.2⟩

theorem discreteFields_sorted {fields : Fields} (h : DiscreteFields fields) :
    DiscreteFields (sortedFields fields) := by
  cases fields with
  | nil => exact h
  | cons field rest =>
    obtain ⟨key, v⟩ := field
    have placed := perm_insertSorted key v.sorted (sortedFields rest)
    rw [sortedFields, discreteFields_iff]
    intro field hfield
    rcases List.mem_cons.1 (placed.mem_iff.1 hfield) with rfl | hfield
    · exact discrete_sorted h.1
    · exact discreteFields_iff.1 (discreteFields_sorted h.2) field hfield

end

end TokenGate.Value
