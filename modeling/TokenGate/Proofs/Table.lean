import Mathlib.Data.List.Nodup
import TokenGate.Table

/-!
# What tables hold after storing

Storing under a key changes what is found under this key only. What is stored under a new key comes
at the end, so that pairs with different keys are stored side by side. Nothing tells two tables
apart that hold the same under the same keys in the same order.
-/

namespace TokenGate

namespace Entries

variable {α : Type} {key : String} {value : α} {entries : List (String × α)}

theorem get?_eq_none_iff : get? key entries = none ↔ key ∉ keys entries := by
  rw [← get?_isSome, Bool.not_eq_true, Option.isSome_eq_false_iff, Option.isNone_iff_eq_none]

theorem mem_put {e : String × α} (h : e ∈ put key value entries) :
    e = (key, value) ∨ e ∈ entries := by
  induction entries with
  | nil =>
    rw [put, List.mem_singleton] at h
    exact .inl h
  | cons x rest ih =>
    obtain ⟨k, v⟩ := x
    by_cases hk : k = key
    · simp only [put, hk, ↓reduceIte, List.mem_cons] at h
      rcases h with h | h
      · exact .inl h
      · exact .inr (List.mem_cons_of_mem _ h)
    · simp only [put, hk, ↓reduceIte, List.mem_cons] at h
      rcases h with h | h
      · exact .inr (h ▸ List.mem_cons_self)
      · exact (ih h).imp_right (List.mem_cons_of_mem _)

/-- What is found after storing has been stored, or it was there before. -/
theorem mem_or_get?_of_putAll {changes entries : List (String × α)}
    (h : get? key (putAll changes entries) = some value) :
    (key, value) ∈ changes ∨ get? key entries = some value := by
  induction changes generalizing entries with
  | nil => exact .inr h
  | cons change rest ih =>
    rcases ih h with later | before
    · exact .inl (List.mem_cons_of_mem _ later)
    · rw [get?_put] at before
      split at before
      · rename_i same
        cases before
        exact .inl (same ▸ List.mem_cons_self)
      · exact .inr before

theorem mem_putAll {changes entries : List (String × α)} {e : String × α}
    (h : e ∈ putAll changes entries) : e ∈ changes ∨ e ∈ entries := by
  induction changes generalizing entries with
  | nil => exact .inr h
  | cons change rest ih =>
    rcases ih h with later | before
    · exact .inl (List.mem_cons_of_mem _ later)
    · rcases mem_put before with rfl | before
      · exact .inl List.mem_cons_self
      · exact .inr before

section MapValues

variable {β : Type} (f : α → β)

theorem mapValues_put (key : String) (value : α) (entries : List (String × α)) :
    mapValues f (put key value entries) = put key (f value) (mapValues f entries) := by
  induction entries with
  | nil => rfl
  | cons e rest ih =>
    simp only [mapValues, List.map_cons, put]
    split
    · rfl
    · exact congrArg ((e.1, f e.2) :: ·) ih

theorem mapValues_putAll (changes entries : List (String × α)) :
    mapValues f (putAll changes entries) = putAll (mapValues f changes) (mapValues f entries) := by
  induction changes generalizing entries with
  | nil => rfl
  | cons change rest ih =>
    have first := ih (put change.1 change.2 entries)
    rw [mapValues_put] at first
    exact first

end MapValues

/-- What is stored under a new key comes at the end. -/
theorem put_of_not_mem (h : key ∉ keys entries) :
    put key value entries = entries ++ [(key, value)] := by
  induction entries with
  | nil => rfl
  | cons e rest ih =>
    rw [keys_cons, List.mem_cons, not_or] at h
    rw [put, if_neg (Ne.symm h.1), ih h.2]
    rfl

/-- Where no key comes twice, every entry is found under its key. -/
theorem get?_of_mem (distinct : (keys entries).Nodup) {e : String × α} (h : e ∈ entries) :
    get? e.1 entries = some e.2 := by
  induction entries with
  | nil => cases h
  | cons x rest ih =>
    rw [keys_cons, List.nodup_cons] at distinct
    rcases List.mem_cons.1 h with rfl | h
    · rw [get?, if_pos rfl]
    · have other : x.1 ≠ e.1 := fun same => distinct.1 (same ▸ List.mem_map_of_mem h)
      rw [get?, if_neg other, ih distinct.2 h]

theorem get?_eq_some_iff (distinct : (keys entries).Nodup) :
    get? key entries = some value ↔ (key, value) ∈ entries := by
  constructor
  · intro h
    induction entries with
    | nil => cases h
    | cons x rest ih =>
      rw [keys_cons, List.nodup_cons] at distinct
      rw [get?] at h
      split at h
      · rename_i first
        cases h
        exact first ▸ List.mem_cons_self
      · exact List.mem_cons_of_mem x (ih distinct.2 h)
  · exact get?_of_mem distinct

/-- Where no key comes twice, the order of the entries does not matter. -/
theorem get?_of_perm {others : List (String × α)} (distinct : (keys entries).Nodup)
    (perm : entries.Perm others) : get? key entries = get? key others := by
  have distinct' : (keys others).Nodup := (perm.map Prod.fst).nodup_iff.1 distinct
  ext value
  rw [get?_eq_some_iff distinct, get?_eq_some_iff distinct', perm.mem_iff]

end Entries

namespace Table

variable {α : Type}

/-- Tables hold the same under every key exactly if they have the same entries in some order. -/
theorem perm_entries_iff {s t : Table α} :
    s.entries.Perm t.entries ↔ ∀ key, s.get? key = t.get? key := by
  have distinct (t : Table α) : t.entries.Nodup := List.Nodup.of_map Prod.fst t.nodup
  rw [List.perm_ext_iff_of_nodup (distinct s) (distinct t), Prod.forall]
  refine forall_congr' fun key => ?_
  simp only [get?, ← Entries.get?_eq_some_iff s.nodup, ← Entries.get?_eq_some_iff t.nodup]
  exact Option.ext_iff.symm

theorem entries_foldl_put {rest : List (String × α)} {t : Table α}
    (h : (t.keys ++ Entries.keys rest).Nodup) :
    (rest.foldl (fun t e => t.put e.1 e.2) t).entries = t.entries ++ rest := by
  induction rest generalizing t with
  | nil => exact (List.append_nil _).symm
  | cons e rest ih =>
    have new : e.1 ∉ t.keys := fun he =>
      (List.nodup_append.1 h).2.2 _ he _ List.mem_cons_self rfl
    have stored : (t.put e.1 e.2).entries = t.entries ++ [e] := Entries.put_of_not_mem new
    have keys : (t.put e.1 e.2).keys = t.keys ++ [e.1] := by rw [keys_put, if_neg new]
    rw [List.foldl_cons, ih, stored, List.append_assoc]
    · rfl
    · rw [keys, List.append_assoc]
      exact h

/-- Pairs with different keys are stored side by side. -/
theorem entries_ofList {entries : List (String × α)} (h : (Entries.keys entries).Nodup) :
    (ofList entries).entries = entries :=
  entries_foldl_put (t := empty) h

/-- The entries of a table are what it holds under its keys, in their order. -/
theorem entries_eq_filterMap (t : Table α) :
    t.entries = t.keys.filterMap fun key => (t.get? key).map fun value => (key, value) := by
  rw [keys, Entries.keys, List.filterMap_map]
  refine List.filterMap_some.symm.trans (List.filterMap_congr fun e he => ?_)
  have found : t.get? e.1 = some e.2 := Entries.get?_of_mem t.nodup he
  rw [Function.comp_apply, found, Option.map_some]

/-- Tables with the same keys that hold the same under each of them are the same. -/
theorem eq_of_get? {s t : Table α} (keys : s.keys = t.keys) (h : ∀ key, s.get? key = t.get? key) :
    s = t := by
  refine ext ?_
  rw [entries_eq_filterMap, entries_eq_filterMap, keys]
  exact List.filterMap_congr fun key _ => by rw [h key]

end Table
end TokenGate
