import Mathlib.Data.List.Nodup
import TokenGate.Proofs.Data

/-!
# Taking an item out of a list

The value of an object has the values of its fields. If no list stands at two places of the data,
what is struck from one of them changes the value at its own place only. And striking the first
item with a given value leaves the items that are left when this value is erased.
-/

namespace TokenGate.Data

variable {v v' : View} {fields : List (String × Data)} {key : String} {d : Data} {x : Value}

section Fields

theorem get?_readFields (v : View) (key : String) (fields : List (String × Data)) :
    Entries.get? key (readFields v fields) = (Entries.get? key fields).map (read v) := by
  induction fields with
  | nil => rfl
  | cons field rest ih =>
    simp only [readFields, Entries.get?]
    split
    · rfl
    · exact ih

theorem exists_of_get?_readFields (h : Entries.get? key (readFields v fields) = some x) :
    ∃ d, Entries.get? key fields = some d ∧ d.read v = x := by
  rw [get?_readFields] at h
  exact Option.map_eq_some_iff.1 h

theorem field_readFields (v : View) (fields : List (String × Data)) (key : String) :
    Value.field (readFields v fields) key = (field fields key).read v := by
  rw [Value.field, field, get?_readFields]
  cases Entries.get? key fields <;> rfl

theorem readFields_put (v : View) (key : String) (d : Data) (fields : List (String × Data)) :
    readFields v (Entries.put key d fields) = Entries.put key (d.read v) (readFields v fields) := by
  induction fields with
  | nil => rfl
  | cons field rest ih =>
    simp only [readFields, Entries.put]
    split
    · rfl
    · rw [readFields, ih]

theorem nodup_of_get? (distinct : (cellsOfFields fields).Nodup)
    (h : Entries.get? key fields = some d) : d.cells.Nodup := by
  induction fields with
  | nil => cases h
  | cons field rest ih =>
    rw [cellsOfFields, List.nodup_append] at distinct
    rw [Entries.get?] at h
    split at h
    · cases h
      exact distinct.1
    · exact ih distinct.2.1 h

/-- Where nothing is held twice, edits of what one field holds change the value of this field, and
nothing else. -/
theorem readFields_of_agree (distinct : (cellsOfFields fields).Nodup)
    (h : Entries.get? key fields = some d)
    (agree : ∀ c ∈ cellsOfFields fields, c ∉ d.cells → v.AgreeOn v' c) :
    readFields v' fields = Entries.put key (d.read v') (readFields v fields) := by
  induction fields with
  | nil => cases h
  | cons field rest ih =>
    obtain ⟨k, e⟩ := field
    rw [cellsOfFields, List.nodup_append] at distinct
    rw [cellsOfFields, List.forall_mem_append] at agree
    obtain ⟨-, others, apart⟩ := distinct
    simp only [Entries.get?] at h
    simp only [readFields, Entries.put]
    split at h
    · rename_i same
      cases h
      have untouched : readFields v rest = readFields v' rest :=
        readFields_congr rest fun c hc => agree.2 c hc fun hd => apart c hd c hc rfl
      rw [if_pos same, untouched]
    · rename_i other
      have untouched : e.read v = e.read v' :=
        read_congr e fun c hc => agree.1 c hc fun hd =>
          apart c hc c (mem_cellsOfFields_of_get? h hd) rfl
      rw [if_neg other, ih others h agree.2, untouched]

end Fields

section Items

variable {mark m : Mark} {n p : Nat} {items : List Data} {s : Edits}

/-- An item with a value is found exactly if this is among the values of the items. -/
theorem isSome_position?_iff :
    (position? v mark x p items).isSome = true ↔
      ∃ y ∈ readItems v mark p items, y.same x = true := by
  induction items generalizing p with
  | nil => simp [position?, readItems]
  | cons d rest ih =>
    rw [position?, readItems]
    cases v.struck mark p <;> cases he : (d.read v).same x <;> simp [he, ih]

theorem le_of_position? (h : position? v mark x p items = some n) : p ≤ n := by
  induction items generalizing p with
  | nil => cases h
  | cons d rest ih =>
    rw [position?] at h
    split at h
    · cases h
      exact Nat.le_refl n
    · exact Nat.le_of_succ_le (ih h)

theorem struck_strike (s : Edits) (m : Mark) (n p : Nat) :
    (Edits.view (s ++ [.strike m n])).struck m p = (s.view.struck m p || decide (p = n)) := by
  rw [Edits.struck_view, Edits.struck_view, Edits.struck_append]
  simp [Edits.struck, eq_comm]

theorem read_strike (lists : ∀ c ∈ d.cells, c.IsList) (apart : .list m ∉ d.cells) (n : Nat) :
    d.read (Edits.view (s ++ [.strike m n])) = d.read s.view := by
  refine read_append lists fun e he => ?_
  rw [List.mem_singleton.1 he]
  exact apart

/-- Behind the position that is struck, the items stay. -/
theorem readItems_strike_of_lt (lists : ∀ c ∈ cellsOfItems items, c.IsList)
    (apart : .list m ∉ cellsOfItems items) (hn : n < p) :
    readItems (Edits.view (s ++ [.strike m n])) m p items = readItems s.view m p items := by
  induction items generalizing p with
  | nil => rfl
  | cons d rest ih =>
    rw [cellsOfItems, List.mem_append, not_or] at apart
    rw [cellsOfItems, List.forall_mem_append] at lists
    have unstruck : decide (p = n) = false := decide_eq_false (Nat.ne_of_gt hn)
    simp only [readItems, struck_strike, unstruck, Bool.or_false, read_strike lists.1 apart.1,
      ih lists.2 apart.2 (Nat.lt_succ_of_lt hn)]

/-- Striking the first item with a value erases this value. -/
theorem readItems_strike (h : position? s.view m x p items = some n)
    (lists : ∀ c ∈ cellsOfItems items, c.IsList) (apart : .list m ∉ cellsOfItems items) :
    readItems (Edits.view (s ++ [.strike m n])) m p items =
      (readItems s.view m p items).eraseP fun y => y.same x := by
  induction items generalizing p with
  | nil => cases h
  | cons d rest ih =>
    rw [cellsOfItems, List.mem_append, not_or] at apart
    rw [cellsOfItems, List.forall_mem_append] at lists
    rw [position?] at h
    split at h
    · rename_i found
      cases h
      rw [Bool.and_eq_true, Bool.not_eq_true'] at found
      have struck : (Edits.view (s ++ [.strike m n])).struck m n = true := by
        rw [struck_strike, decide_eq_true rfl, Bool.or_true]
      rw [readItems, if_pos struck, readItems_strike_of_lt lists.2 apart.2 (Nat.lt_succ_self n),
        readItems, found.1, if_neg Bool.false_ne_true,
        List.eraseP_cons_of_pos (p := fun y : Value => y.same x) found.2]
    · rename_i passed
      have later : p < n := le_of_position? h
      have unstruck : decide (p = n) = false := decide_eq_false (Nat.ne_of_lt later)
      rw [readItems, readItems, struck_strike, unstruck, Bool.or_false,
        read_strike lists.1 apart.1, ih h lists.2 apart.2]
      cases struck : s.view.struck m p with
      | true => rfl
      | false =>
        rw [struck] at passed
        rw [if_neg Bool.false_ne_true, if_neg Bool.false_ne_true,
          List.eraseP_cons_of_neg (p := fun y : Value => y.same x) (by simpa using passed)]

end Items

end TokenGate.Data
