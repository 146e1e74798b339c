import TokenGate.Effect

/-!
# What built-in effects do

The edits that the built-in effects make: `set_flag` sets an entry of the game's data, and
`remove_piece` strikes an item of the list that the game's pieces hold for a side.
-/

namespace TokenGate.Effect

variable {s : Edits} {c : Context} {payload : Data} {edit : Edit}

/-- What `set_flag` stores, and when. -/
theorem setFlag_eq_ok_iff :
    setFlag s c payload = .ok edit ↔ ∃ fields, s.entries? payload = some fields ∧
      ((Data.field fields "flag").read s.view).truth = true ∧
      edit = c.put ((Data.field fields "flag").read s.view).shown
        ((Entries.get? "value" fields).getD (.bool true)) := by
  constructor
  · intro h
    unfold setFlag at h
    split at h
    · rename_i fields held
      simp only at h
      split at h
      · rename_i flagged
        cases h
        exact ⟨fields, held, flagged, rfl⟩
      · cases h
    · cases h
  · rintro ⟨fields, held, flagged, rfl⟩
    simp only [setFlag, held, if_pos flagged]

theorem get?_of_rosters {sides : List (String × Data)} {name : String} {d : Data}
    (h : rosters s c = .ok sides) (hd : Entries.get? name sides = some d) :
    ∃ pieces, Entries.get? "pieces" (c.entries s) = some pieces ∧
      s.entries? pieces = some sides := by
  unfold rosters at h
  split at h
  · cases h
    cases hd
  · rename_i pieces hpieces
    split at h
    · rename_i held
      cases h
      exact ⟨pieces, hpieces, held⟩
    · cases h

/-- Fields address a roster: the game has pieces, and among these a list for the side that the
fields name. -/
structure Addresses (s : Edits) (c : Context) (fields sides : List (String × Data))
    (side : String) (mark : Mark) (items : List Data) : Prop where
  pieces : ∃ pieces, Entries.get? "pieces" (c.entries s) = some pieces ∧
    s.entries? pieces = some sides
  names : (Data.field fields "side").read s.view = .str side
  roster : Entries.get? side sides = some (.list mark items)

section Addresses

variable {fields sides : List (String × Data)} {side : String} {mark : Mark} {items : List Data}

/-- `remove_piece` takes the first such piece from the roster that is addressed. -/
theorem Addresses.removePiece (h : Addresses s c fields sides side mark items)
    (held : s.entries? payload = some fields) :
    removePiece s c payload =
      match Data.position? s.view mark ((Data.field fields "piece").read s.view) 0 items with
      | some n => .ok (.strike mark n)
      | none => .error (.noPiece ((Data.field fields "piece").read s.view) (.str side)) := by
  obtain ⟨⟨pieces, stored, hsides⟩, names, roster⟩ := h
  have hrosters : rosters s c = .ok sides := by simp only [rosters, stored, hsides]
  have hkey : (Value.str side).asKey = .ok (some side) := rfl
  cases found : Data.position? s.view mark ((Data.field fields "piece").read s.view) 0 items <;>
    simp only [Effect.removePiece, held, hrosters, names, hkey, Option.bind_some, roster, found]

theorem eq_str_of_asKey {v : Value} {text : String} (h : v.asKey = .ok (some text)) :
    v = .str text := by
  cases v with
  | str t =>
    cases h
    rfl
  | _ => cases h

/-- From where `remove_piece` takes a piece. -/
theorem addresses_of_removePiece (h : removePiece s c payload = .ok edit) :
    ∃ fields sides side mark items, s.entries? payload = some fields ∧
      Addresses s c fields sides side mark items ∧ ∃ n, edit = .strike mark n := by
  unfold Effect.removePiece at h
  split at h
  · rename_i fields held
    simp only at h
    split at h
    · cases h
    · cases h
    · rename_i sides key hsides hkey
      split at h
      · rename_i mark items hroster
        obtain ⟨side, rfl, roster⟩ := Option.bind_eq_some_iff.1 hroster
        refine ⟨fields, sides, side, mark, items, held,
          ⟨get?_of_rosters hsides roster, eq_str_of_asKey hkey, roster⟩, ?_⟩
        split at h
        · rename_i n _
          cases h
          exact ⟨n, rfl⟩
        · cases h
      · cases h
  · cases h

end Addresses

end TokenGate.Effect
