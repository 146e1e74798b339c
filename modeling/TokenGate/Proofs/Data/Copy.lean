import TokenGate.Context
import TokenGate.Proofs.Data

/-!
# Copies of data

Data as it is viewed has the value that it was viewed with, and holds the data of no game any more.
A copy of it holds other lists. So the copy that a snapshot has of the data of a game shows this as
it was, as long as nothing is struck from the lists of the copy itself.
-/

namespace TokenGate

variable {v : View}

namespace Data

theorem valueOfFields_eq (fields : List (String × Data)) :
    valueOfFields fields = Entries.mapValues value fields := by
  induction fields with
  | nil => rfl
  | cons field rest ih => rw [valueOfFields, ih]; rfl

theorem valueOfFields_putAll (changes fields : List (String × Data)) :
    valueOfFields (Entries.putAll changes fields) =
      Entries.putAll (valueOfFields changes) (valueOfFields fields) := by
  simp only [valueOfFields_eq, Entries.mapValues_putAll]

mutual

/-- Data as it is viewed has the value that it is viewed with. -/
theorem value_present (d : Data) : (d.present v).value = d.read v := by
  cases d with
  | list mark items => simp only [present, value, read, valueOfItems_present mark 0 items]
  | object fields => simp only [present, value, read, valueOfFields_present fields]
  | game n fields =>
    simp only [present, value, read, valueOfFields_putAll, valueOfFields_present fields]
  | _ => rfl

theorem valueOfItems_present (mark : Mark) (position : Nat) (items : List Data) :
    valueOfItems (presentItems v mark position items) = readItems v mark position items := by
  cases items with
  | nil => rfl
  | cons d rest =>
    simp only [presentItems, readItems]
    split
    · exact valueOfItems_present mark (position + 1) rest
    · simp only [valueOfItems, value_present d, valueOfItems_present mark (position + 1) rest]

theorem valueOfFields_present (fields : List (String × Data)) :
    valueOfFields (presentFields v fields) = readFields v fields := by
  cases fields with
  | nil => rfl
  | cons field rest =>
    obtain ⟨key, d⟩ := field
    simp only [presentFields, valueOfFields, readFields, value_present d,
      valueOfFields_present rest]

end

theorem mem_cellsOfFields {fields : List (String × Data)} {c : Cell} :
    c ∈ cellsOfFields fields ↔ ∃ field ∈ fields, c ∈ field.2.cells := by
  induction fields with
  | nil => simp [cellsOfFields]
  | cons field rest ih => simp [cellsOfFields, ih]

mutual

/-- Where what has been stored holds lists only, so does data as it is viewed. -/
theorem isList_of_mem_present (h : ∀ n, ∀ c ∈ cellsOfFields (v.stored n), c.IsList) (d : Data) :
    ∀ c ∈ (d.present v).cells, c.IsList := by
  cases d with
  | list mark items =>
    intro c hc
    rcases List.mem_cons.1 hc with rfl | hc
    · trivial
    · exact isList_of_mem_presentItems h mark 0 items c hc
  | object fields => exact isList_of_mem_presentFields h fields
  | game n fields =>
    intro c hc
    obtain ⟨field, hfield, hc⟩ := mem_cellsOfFields.1 hc
    rcases Entries.mem_putAll hfield with stored | own
    · exact h n c (mem_cellsOfFields.2 ⟨field, stored, hc⟩)
    · exact isList_of_mem_presentFields h fields c (mem_cellsOfFields.2 ⟨field, own, hc⟩)
  | _ => exact nofun

theorem isList_of_mem_presentItems (h : ∀ n, ∀ c ∈ cellsOfFields (v.stored n), c.IsList)
    (mark : Mark) (position : Nat) (items : List Data) :
    ∀ c ∈ cellsOfItems (presentItems v mark position items), c.IsList := by
  cases items with
  | nil => exact nofun
  | cons d rest =>
    have others := isList_of_mem_presentItems h mark (position + 1) rest
    rw [presentItems]
    split
    · exact others
    · exact List.forall_mem_append.2 ⟨isList_of_mem_present h d, others⟩

theorem isList_of_mem_presentFields (h : ∀ n, ∀ c ∈ cellsOfFields (v.stored n), c.IsList)
    (fields : List (String × Data)) :
    ∀ c ∈ cellsOfFields (presentFields v fields), c.IsList := by
  cases fields with
  | nil => exact nofun
  | cons field rest =>
    obtain ⟨key, d⟩ := field
    exact List.forall_mem_append.2
      ⟨isList_of_mem_present h d, isList_of_mem_presentFields h rest⟩

end

theorem isList_of_mem_stored (s : Edits) (depth n : Nat) :
    ∀ c ∈ cellsOfFields ((s.viewTo depth).stored n), c.IsList := by
  induction depth generalizing n with
  | zero => exact nofun
  | succ depth ih =>
    intro c hc
    obtain ⟨field, hfield, hc⟩ := mem_cellsOfFields.1 hc
    obtain ⟨stored, -, rfl⟩ := List.mem_map.1 hfield
    exact isList_of_mem_present ih stored.2 c hc

mutual

/-- The lists of a copy are the other ones. -/
theorem mem_cells_recast {f : Mark → Mark} {d : Data} (lists : ∀ c ∈ d.cells, c.IsList) :
    ∀ c ∈ (d.recast f).cells, ∃ mark, c = .list (f mark) := by
  cases d with
  | list mark items =>
    intro c hc
    rcases List.mem_cons.1 hc with rfl | hc
    · exact ⟨mark, rfl⟩
    · exact mem_cellsOfItems_recast (fun x hx => lists x (List.mem_cons_of_mem _ hx)) c hc
  | object fields => exact mem_cellsOfFields_recast lists
  | game n fields => exact (lists _ List.mem_cons_self).elim
  | _ => exact nofun

theorem mem_cellsOfItems_recast {f : Mark → Mark} {items : List Data}
    (lists : ∀ c ∈ cellsOfItems items, c.IsList) :
    ∀ c ∈ cellsOfItems (recastItems f items), ∃ mark, c = .list (f mark) := by
  cases items with
  | nil => exact nofun
  | cons d rest =>
    obtain ⟨first, others⟩ := List.forall_mem_append.1 lists
    exact List.forall_mem_append.2 ⟨mem_cells_recast first, mem_cellsOfItems_recast others⟩

theorem mem_cellsOfFields_recast {f : Mark → Mark} {fields : List (String × Data)}
    (lists : ∀ c ∈ cellsOfFields fields, c.IsList) :
    ∀ c ∈ cellsOfFields (recastFields f fields), ∃ mark, c = .list (f mark) := by
  cases fields with
  | nil => exact nofun
  | cons field rest =>
    obtain ⟨key, d⟩ := field
    obtain ⟨first, others⟩ := List.forall_mem_append.1 lists
    exact List.forall_mem_append.2 ⟨mem_cells_recast first, mem_cellsOfFields_recast others⟩

end

mutual

/-- A copy from which nothing is struck has the value that it was made with. -/
theorem read_recast {f : Mark → Mark} (unstruck : ∀ mark p, v.struck (f mark) p = false) {d : Data}
    (lists : ∀ c ∈ d.cells, c.IsList) : (d.recast f).read v = d.value := by
  cases d with
  | list mark items =>
    simp only [recast, read, value,
      readItems_recast unstruck mark 0 fun x hx => lists x (List.mem_cons_of_mem _ hx)]
  | object fields => simp only [recast, read, value, readFields_recast unstruck lists]
  | game n fields => exact (lists _ List.mem_cons_self).elim
  | _ => rfl

theorem readItems_recast {f : Mark → Mark} (unstruck : ∀ mark p, v.struck (f mark) p = false)
    (mark : Mark) (position : Nat) {items : List Data}
    (lists : ∀ c ∈ cellsOfItems items, c.IsList) :
    readItems v (f mark) position (recastItems f items) = valueOfItems items := by
  cases items with
  | nil => rfl
  | cons d rest =>
    obtain ⟨first, others⟩ := List.forall_mem_append.1 lists
    simp only [recastItems, readItems, unstruck, Bool.false_eq_true, if_false, valueOfItems,
      read_recast unstruck first, readItems_recast unstruck mark (position + 1) others]

theorem readFields_recast {f : Mark → Mark} (unstruck : ∀ mark p, v.struck (f mark) p = false)
    {fields : List (String × Data)} (lists : ∀ c ∈ cellsOfFields fields, c.IsList) :
    readFields v (recastFields f fields) = valueOfFields fields := by
  cases fields with
  | nil => rfl
  | cons field rest =>
    obtain ⟨key, d⟩ := field
    obtain ⟨first, others⟩ := List.forall_mem_append.1 lists
    simp only [recastFields, readFields, valueOfFields, read_recast unstruck first,
      readFields_recast unstruck others]

end

end Data

namespace Context

variable (c : Context) (s : Edits) (number : Nat)

theorem isList_of_mem_presented :
    ∀ x ∈ Data.cellsOfFields (Data.presentFields s.view (c.entries s)), x.IsList :=
  Data.isList_of_mem_presentFields (Data.isList_of_mem_stored s s.length) (c.entries s)

/-- The lists of the game that a snapshot has are copies that were made for it. -/
theorem mem_cells_snapshot :
    ∀ x ∈ (c.snapshot s number).game.cells, ∃ mark, x = .list (.copied number mark) :=
  Data.mem_cellsOfFields_recast (c.isList_of_mem_presented s)

/-- A snapshot shows the data of the game as it was, as long as nothing is struck from its own
lists. -/
theorem read_snapshot (unstruck : ∀ mark p, v.struck (.copied number mark) p = false) :
    (c.snapshot s number).game.read v = .object (c.fields s) := by
  have copied := Data.readFields_recast unstruck (c.isList_of_mem_presented s)
  rw [Data.valueOfFields_present] at copied
  exact congrArg Value.object copied

end Context
end TokenGate
