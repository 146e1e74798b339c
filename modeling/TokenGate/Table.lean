/-!
# Tables

Finite maps from texts that remember the order in which their keys first came: storing under a
known key replaces the value where it stands, storing under a new one adds an entry at the end.
`Entries` has the operations on plain lists of pairs; a `Table` is such a list with no key twice.
-/

namespace TokenGate

namespace Entries

variable {α β : Type}

/-- The value stored under a key. -/
def get? (key : String) : List (String × α) → Option α
  | [] => none
  | (k, v) :: rest => if k = key then some v else get? key rest

/-- Stores a value under a key. -/
def put (key : String) (value : α) : List (String × α) → List (String × α)
  | [] => [(key, value)]
  | (k, v) :: rest => if k = key then (k, value) :: rest else (k, v) :: put key value rest

/-- Stores values under keys, in order. -/
def putAll (changes entries : List (String × α)) : List (String × α) :=
  changes.foldl (fun entries e => put e.1 e.2 entries) entries

/-- Applies a function to the values. -/
def mapValues (f : α → β) (entries : List (String × α)) : List (String × β) :=
  entries.map fun e => (e.1, f e.2)

/-- The keys, in order. -/
def keys (entries : List (String × α)) : List String := entries.map Prod.fst

@[simp] theorem keys_nil : keys ([] : List (String × α)) = [] := rfl

@[simp] theorem keys_cons (e : String × α) (rest : List (String × α)) :
    keys (e :: rest) = e.1 :: keys rest := rfl

/-- Storing keeps the keys and adds a new one at the end. -/
theorem keys_put (key : String) (value : α) (entries : List (String × α)) :
    keys (put key value entries) =
      if key ∈ keys entries then keys entries else keys entries ++ [key] := by
  induction entries with
  | nil => simp [put]
  | cons e rest ih =>
    obtain ⟨k, v⟩ := e
    by_cases h : k = key
    · simp [put, h]
    · have h' : ¬ key = k := fun e => h e.symm
      simp only [put, h, ↓reduceIte, keys_cons, ih, List.mem_cons, h', false_or]
      split <;> simp

/-- What is stored under a key is found there, and other keys are unaffected. -/
theorem get?_put (key other : String) (value : α) (entries : List (String × α)) :
    get? other (put key value entries) = if key = other then some value else get? other entries := by
  induction entries with
  | nil => simp [put, get?]
  | cons e rest ih =>
    obtain ⟨k, v⟩ := e
    by_cases h : k = key
    · subst h
      by_cases h' : k = other <;> simp [put, get?, h']
    · simp only [put, h, ↓reduceIte, get?, ih]
      by_cases h' : k = other
      · subst h'
        simp [Ne.symm h]
      · simp [h']

/-- A key is bound exactly if it is among the keys. -/
theorem get?_isSome (key : String) (entries : List (String × α)) :
    (get? key entries).isSome = true ↔ key ∈ keys entries := by
  induction entries with
  | nil => simp [get?]
  | cons e rest ih =>
    obtain ⟨k, v⟩ := e
    by_cases h : k = key
    · simp [get?, h]
    · have h' : ¬ key = k := fun e => h e.symm
      simp [get?, h, h', ih]

theorem nodup_keys_put (key : String) (value : α) {entries : List (String × α)}
    (h : (keys entries).Nodup) : (keys (put key value entries)).Nodup := by
  rw [keys_put]
  split
  · exact h
  · rename_i hk
    rw [List.nodup_append]
    refine ⟨h, by simp, ?_⟩
    intro a ha b hb
    rw [List.mem_singleton] at hb
    subst hb
    rintro rfl
    exact hk ha

end Entries

/-- A finite map from texts with its keys in the order of their first storing. -/
structure Table (α : Type) where
  entries : List (String × α)
  nodup : (Entries.keys entries).Nodup

namespace Table

variable {α β : Type}

/-- The table with no entry. -/
def empty : Table α := ⟨[], List.nodup_nil⟩

instance : EmptyCollection (Table α) := ⟨empty⟩
instance : Inhabited (Table α) := ⟨empty⟩

/-- The value stored under a key. -/
def get? (t : Table α) (key : String) : Option α := Entries.get? key t.entries

/-- Stores a value under a key. -/
def put (t : Table α) (key : String) (value : α) : Table α :=
  ⟨Entries.put key value t.entries, Entries.nodup_keys_put key value t.nodup⟩

/-- Whether a key is bound. -/
def contains (t : Table α) (key : String) : Bool := (t.get? key).isSome

/-- The keys, in order. -/
def keys (t : Table α) : List String := Entries.keys t.entries

/-- The number of entries. -/
def size (t : Table α) : Nat := t.entries.length

/-- Changes what is stored under a key, given what is there now. -/
def adjust (t : Table α) (key : String) (f : Option α → α) : Table α :=
  t.put key (f (t.get? key))

/-- The table that results from storing the pairs of a list one after another. -/
def ofList (entries : List (String × α)) : Table α :=
  entries.foldl (fun t e => t.put e.1 e.2) empty

@[ext] theorem ext {s t : Table α} (h : s.entries = t.entries) : s = t := by
  cases s; cases t; simp_all

@[simp] theorem get?_empty (key : String) : (empty : Table α).get? key = none := rfl

theorem get?_put (t : Table α) (key other : String) (value : α) :
    (t.put key value).get? other = if key = other then some value else t.get? other :=
  Entries.get?_put key other value t.entries

theorem keys_put (t : Table α) (key : String) (value : α) :
    (t.put key value).keys = if key ∈ t.keys then t.keys else t.keys ++ [key] :=
  Entries.keys_put key value t.entries

theorem get?_adjust (t : Table α) (key other : String) (f : Option α → α) :
    (t.adjust key f).get? other = if key = other then some (f (t.get? key)) else t.get? other :=
  t.get?_put key other _

theorem keys_adjust (t : Table α) (key : String) (f : Option α → α) :
    (t.adjust key f).keys = if key ∈ t.keys then t.keys else t.keys ++ [key] :=
  t.keys_put key _

theorem contains_iff (t : Table α) (key : String) : t.contains key = true ↔ key ∈ t.keys :=
  Entries.get?_isSome key t.entries

theorem nodup_keys (t : Table α) : t.keys.Nodup := t.nodup

end Table
end TokenGate
