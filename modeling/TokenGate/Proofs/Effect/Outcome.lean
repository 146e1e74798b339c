import TokenGate.Proofs.Data.Strike
import TokenGate.Proofs.Effect

/-!
# What built-in effects make of the data of a game

Said of values, whoever shares the lists in which they are kept: `set_flag` stores one entry, and
`remove_piece` erases the first item of one list that is equal to the piece. Each succeeds exactly
where there is something to store or to erase.
-/

namespace TokenGate.Effect

/-- The built-in effects. -/
inductive BuiltIn where
  | setFlag
  | removePiece

/-- The names under which games have them. -/
def BuiltIn.name : BuiltIn → String
  | setFlag => "set_flag"
  | removePiece => "remove_piece"

/-- How a built-in effect changes the data of a game. -/
inductive Changes : BuiltIn → Value → Fields → Fields → Prop where
  /-- The value is stored under the flag; it is true if the payload has none. -/
  | setFlag {payload game : Fields} (flagged : (Value.field payload "flag").truth = true) :
      Changes .setFlag (.object payload) game
        (Entries.put (Value.field payload "flag").shown
          ((Entries.get? "value" payload).getD (.bool true)) game)
  /-- The piece is erased from the roster of the side. -/
  | removePiece {payload game sides : Fields} {side : String} {roster : List Value}
      (pieces : Entries.get? "pieces" game = some (.object sides))
      (names : Value.field payload "side" = .str side)
      (held : Entries.get? side sides = some (.list roster))
      (among : ∃ x ∈ roster, x.same (Value.field payload "piece") = true) :
      Changes .removePiece (.object payload) game
        (Entries.put "pieces" (.object (Entries.put side
          (.list (roster.eraseP fun x => x.same (Value.field payload "piece"))) sides)) game)

variable {s : Edits} {c : Context} {payload : Data} {edit : Edit}

/-- What an effect makes of the data is determined. -/
theorem Changes.unique {b : BuiltIn} {v : Value} {g₁ g₂ : Fields} (h₁ : Changes b v game g₁)
    (h₂ : Changes b v game g₂) : g₁ = g₂ := by
  cases h₁ with
  | setFlag =>
    cases h₂
    rfl
  | removePiece pieces names held =>
    cases h₂ with
    | removePiece pieces' names' held' =>
      cases pieces.symm.trans pieces'
      cases names.symm.trans names'
      cases held.symm.trans held'
      rfl

/-- The data of a game is a tree, in which nothing is held twice, and neither it nor the payload
holds the data of a game. -/
structure Treelike (s : Edits) (c : Context) (payload : Data) : Prop where
  once : (Data.cellsOfFields (c.entries s)).Nodup
  lists : ∀ x ∈ Data.cellsOfFields (c.entries s), x.IsList
  given : ∀ x ∈ payload.cells, x.IsList

/-- The data of a game that has just been started is a tree, and so it is when data comes that was
made from a value. -/
theorem treelike_fresh (number : Nat) (tokens : List String) (game : Fields) (next : Nat)
    (v : Value) : Treelike [] (.fresh number tokens game) (Data.share next v).1 where
  once := Data.nodup_cellsOfFields_mint (fun _ _ same => (Mark.own.inj same).2) 0 game
  lists := Data.isList_of_mem_mint _ 0 (.object game)
  given := Data.isList_of_mem_mint .sent next v

/-- Setting an entry in the data of a game leaves all lists as they are. -/
theorem agreeOn_put {x : Cell} (hx : x.IsList) (s : Edits) (n : Nat) (key : String) (d : Data) :
    s.view.AgreeOn (Edits.view (s ++ [.put n key d])) x := by
  refine Edits.agreeOn_append hx fun e he => ?_
  rw [List.mem_singleton.1 he]
  rintro rfl
  exact hx

/-- Where no data of games is held, setting an entry adds the value of what is set. -/
theorem fields_put {key : String} {d : Data}
    (lists : ∀ x ∈ Data.cellsOfFields (c.entries s), x.IsList)
    (given : ∀ x ∈ d.cells, x.IsList) :
    c.fields (s ++ [c.put key d]) = Entries.put key (d.read s.view) (c.fields s) := by
  have stored := Data.read_congr d fun x hx => agreeOn_put (given x hx) s c.number key d
  have others := Data.readFields_congr _ fun x hx => agreeOn_put (lists x hx) s c.number key d
  rw [Context.fields, Context.entries, Context.put, Edits.entries_put, Data.readFields_put,
    ← stored, Context.fields, others]
  rfl

theorem fields_strike {mark : Mark} {n : Nat} :
    c.fields (s ++ [.strike mark n]) =
      Data.readFields (Edits.view (s ++ [.strike mark n])) (c.entries s) := by
  rw [Context.fields, Context.entries, Edits.entries_strike, Context.entries]

theorem eq_object_of_entries {fields : List (String × Data)} (given : ∀ x ∈ payload.cells, x.IsList)
    (held : s.entries? payload = some fields) : payload = .object fields := by
  cases payload with
  | object ds =>
    cases held
    rfl
  | game n ds => exact (given _ List.mem_cons_self).elim
  | _ => cases held

theorem changes_of_setFlag (tree : Treelike s c payload) (h : setFlag s c payload = .ok edit) :
    Changes .setFlag (payload.read s.view) (c.fields s) (c.fields (s ++ [edit])) := by
  obtain ⟨fields, held, flagged, rfl⟩ := setFlag_eq_ok_iff.1 h
  obtain rfl := eq_object_of_entries tree.given held
  have stored : ((Entries.get? "value" fields).getD (.bool true)).read s.view =
      (Entries.get? "value" (Data.readFields s.view fields)).getD (.bool true) := by
    rw [Data.get?_readFields]
    cases Entries.get? "value" fields <;> rfl
  have given : ∀ x ∈ ((Entries.get? "value" fields).getD (.bool true)).cells, x.IsList := by
    cases hvalue : Entries.get? "value" fields with
    | none => exact nofun
    | some d => exact fun x hx => tree.given x (Data.mem_cellsOfFields_of_get? hvalue hx)
  rw [fields_put tree.lists given, stored, ← Data.field_readFields]
  rw [← Data.field_readFields] at flagged
  exact .setFlag flagged

theorem setFlag_of_changes {game : Fields} (given : ∀ x ∈ payload.cells, x.IsList)
    (h : Changes .setFlag (payload.read s.view) (c.fields s) game) :
    ∃ edit, setFlag s c payload = .ok edit := by
  generalize hp : payload.read s.view = v at h
  cases h with
  | setFlag flagged =>
    obtain ⟨fields, rfl, rfl⟩ := Data.eq_object_of_read given hp
    rw [Data.field_readFields] at flagged
    exact ⟨_, setFlag_eq_ok_iff.2 ⟨fields, rfl, flagged, rfl⟩⟩

section Taken

variable {fields sides : List (String × Data)} {side : String} {mark : Mark} {items : List Data}

theorem Addresses.get?_pieces (h : Addresses s c fields sides side mark items)
    (lists : ∀ x ∈ Data.cellsOfFields (c.entries s), x.IsList) :
    Entries.get? "pieces" (c.entries s) = some (.object sides) := by
  obtain ⟨pieces, stored, held⟩ := h.pieces
  rw [stored, eq_object_of_entries (fun x hx => lists x ?_) held]
  exact Data.mem_cellsOfFields_of_get? stored hx

/-- Where the data of the game is a tree, taking a piece erases it from its roster and changes
nothing else. -/
theorem Addresses.fields_taken (h : Addresses s c fields sides side mark items)
    (tree : Treelike s c payload) {piece : Value} {n : Nat}
    (found : Data.position? s.view mark piece 0 items = some n) :
    c.fields (s ++ [.strike mark n]) =
      Entries.put "pieces" (.object (Entries.put side
        (.list ((Data.readItems s.view mark 0 items).eraseP fun x => x.same piece))
        (Data.readFields s.view sides))) (c.fields s) := by
  have pieces := h.get?_pieces tree.lists
  have inner : (Data.cellsOfFields sides).Nodup := Data.nodup_of_get? tree.once pieces
  have own : (Cell.list mark :: Data.cellsOfItems items).Nodup := Data.nodup_of_get? inner h.roster
  have inside {x : Cell} (hx : x ∈ Data.cellsOfFields sides) : x.IsList :=
    tree.lists x (Data.mem_cellsOfFields_of_get? pieces hx)
  have deeper {x : Cell} (hx : x ∈ Data.cells (.list mark items)) : x.IsList :=
    inside (Data.mem_cellsOfFields_of_get? h.roster hx)
  have held : .list mark ∈ Data.cells (.list mark items) := List.mem_cons_self
  have agree {d : Data} (hm : .list mark ∈ d.cells) {x : Cell} (hx : x.IsList) (hd : x ∉ d.cells) :
      s.view.AgreeOn (Edits.view (s ++ [.strike mark n])) x := by
    refine Edits.agreeOn_append hx fun e he => ?_
    rw [List.mem_singleton.1 he]
    exact ne_of_mem_of_not_mem hm hd
  -- the roster stands in the pieces only, and there at its side only
  have atSides := Data.readFields_of_agree tree.once pieces fun x hx =>
    agree (d := .object sides) (Data.mem_cellsOfFields_of_get? h.roster held) (tree.lists x hx)
  have atSide := Data.readFields_of_agree inner h.roster fun x hx => agree held (inside hx)
  rw [fields_strike, atSides, Data.read, atSide, Data.read,
    Data.readItems_strike found (fun x hx => deeper (List.mem_cons_of_mem _ hx))
      (List.nodup_cons.1 own).1]
  rfl

end Taken

theorem changes_of_removePiece (tree : Treelike s c payload)
    (h : removePiece s c payload = .ok edit) :
    Changes .removePiece (payload.read s.view) (c.fields s) (c.fields (s ++ [edit])) := by
  obtain ⟨fields, sides, side, mark, items, held, address, -⟩ := addresses_of_removePiece h
  rw [address.removePiece held] at h
  obtain rfl := eq_object_of_entries tree.given held
  split at h
  · rename_i n found
    have after := address.fields_taken tree found
    rw [Except.ok.inj h, ← Data.field_readFields] at after
    rw [after]
    refine .removePiece ?_ ?_ ?_ ?_
    · rw [Context.fields, Data.get?_readFields, address.get?_pieces tree.lists]
      rfl
    · rw [Data.field_readFields, address.names]
    · rw [Data.get?_readFields, address.roster]
      rfl
    · rw [Data.field_readFields]
      exact Data.isSome_position?_iff.1 (Option.isSome_of_eq_some found)
  · cases h

theorem removePiece_of_changes {game : Fields} (tree : Treelike s c payload)
    (h : Changes .removePiece (payload.read s.view) (c.fields s) game) :
    ∃ edit, removePiece s c payload = .ok edit := by
  generalize hp : payload.read s.view = v at h
  cases h with
  | removePiece pieces names held among =>
    obtain ⟨fields, rfl, rfl⟩ := Data.eq_object_of_read tree.given hp
    obtain ⟨d, hd, pieces⟩ := Data.exists_of_get?_readFields pieces
    obtain ⟨sides, rfl, rfl⟩ := Data.eq_object_of_read
      (fun x hx => tree.lists x (Data.mem_cellsOfFields_of_get? hd hx)) pieces
    obtain ⟨d, hd', held⟩ := Data.exists_of_get?_readFields held
    obtain ⟨mark, items, rfl, rfl⟩ := Data.eq_list_of_read held
    rw [Data.field_readFields] at names among
    have address : Addresses s c fields sides _ mark items := ⟨⟨_, hd, rfl⟩, names, hd'⟩
    obtain ⟨n, found⟩ := Option.isSome_iff_exists.1 (Data.isSome_position?_iff.2 among)
    rw [address.removePiece rfl, found]
    exact ⟨_, rfl⟩

end TokenGate.Effect
