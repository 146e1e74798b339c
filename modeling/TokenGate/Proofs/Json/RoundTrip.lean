import TokenGate.Proofs.Json.Scalars
import TokenGate.Proofs.Table
import TokenGate.Proofs.Value.Alike

/-!
# Reading what has been written

The JSON text of discrete data is read back as the same data. An item of a list, or a field of an
object, is followed by a comma or a bracket, none of which a number could go on with; and a reader
whose fuel exceeds the length of the text does not run out of it.
-/

namespace TokenGate.Json

open Value

theorem skipGap_cons {c : Char} (h : isGap c = false) (rest : List Char) :
    skipGap (c :: rest) = c :: rest :=
  List.dropWhile_cons_of_neg (by simp [h])

theorem endsNumber_comma (rest : List Char) : EndsNumber (',' :: rest) :=
  endsNumber_cons (by decide) rest

theorem endsNumber_bracket (rest : List Char) : EndsNumber (']' :: rest) :=
  endsNumber_cons (by decide) rest

theorem endsNumber_brace (rest : List Char) : EndsNumber ('\x7d' :: rest) :=
  endsNumber_cons (by decide) rest

/-- The text of an integer begins with a minus sign or a digit. -/
theorem toString_begins (n : Int) :
    ∃ c cs, (toString n).toList = c :: cs ∧ (c = '-' ∨ c.isDigit = true) := by
  cases n with
  | ofNat m =>
    obtain ⟨c, ds, hds, digit⟩ := toDigits_begins m
    exact ⟨c, ds, (toString_ofNat m).trans hds, .inr digit⟩
  | negSucc m => exact ⟨'-', _, toString_negSucc m, .inl rfl⟩

theorem readValue_number {c : Char} (h : c = '-' ∨ c.isDigit = true) (fuel : Nat) (cs : List Char) :
    readValue (fuel + 1) (c :: cs) = readNumber (c :: cs) := by
  have apart {d : Char} (hd : d ≠ '-' ∧ d.isDigit = false) : c ≠ d := by
    rintro rfl
    rcases h with h | h
    · exact hd.1 h
    · rw [hd.2] at h
      cases h
  rw [readValue]
  all_goals
    intro rest heq
    cases heq
    exact apart (by decide) rfl

/-- A value's text begins neither with a blank nor with the end of a list. -/
theorem chars_begins {v : Value} (h : v.Discrete) :
    ∃ c cs, chars v = c :: cs ∧ isGap c = false ∧ c ≠ ']' := by
  cases v with
  | null => exact ⟨_, _, rfl, by decide, by decide⟩
  | bool b => cases b <;> exact ⟨_, _, rfl, by decide, by decide⟩
  | int n =>
    obtain ⟨c, cs, text, hc⟩ := toString_begins n
    refine ⟨c, cs, text, ?_, ?_⟩
    · rcases hc with rfl | digit
      · rfl
      · rw [Char.isDigit_iff_toNat] at digit
        simp only [isGap, Bool.or_eq_false_iff, beq_eq_false_iff_ne]
        refine ⟨⟨⟨?_, ?_⟩, ?_⟩, ?_⟩ <;> (rintro rfl; revert digit; decide)
    · rintro rfl
      rcases hc with hc | hc <;> cases hc
  | float x => exact h.elim
  | str s => exact ⟨_, _, rfl, by decide, by decide⟩
  | list items => exact ⟨_, _, rfl, by decide, by decide⟩
  | object fields => exact ⟨_, _, rfl, by decide, by decide⟩

theorem skipGap_chars {v : Value} (h : v.Discrete) (rest : List Char) :
    skipGap (chars v ++ rest) = chars v ++ rest := by
  obtain ⟨c, cs, text, hc, -⟩ := chars_begins h
  rw [text, List.cons_append, skipGap_cons hc]

theorem commaSeparated_cons (t t' : List Char) (rest : List (List Char)) :
    commaSeparated (t :: t' :: rest) = t ++ ',' :: commaSeparated (t' :: rest) := rfl

/-- The items of a list begin as the first of them does. -/
theorem items_begin {v : Value} (h : v.Discrete) (items : List Value) :
    ∃ c cs, commaSeparated (itemChars (v :: items)) = c :: cs ∧ isGap c = false ∧ c ≠ ']' := by
  obtain ⟨c, cs, text, hc⟩ := chars_begins h
  cases items with
  | nil => exact ⟨c, cs, text, hc⟩
  | cons w others =>
    refine ⟨c, cs ++ ',' :: commaSeparated (itemChars (w :: others)), ?_, hc⟩
    rw [itemChars, itemChars, commaSeparated_cons, text]
    rfl

/-- The fields of an object begin with a quote. -/
theorem fields_begin (key : String) (v : Value) (fields : Fields) :
    ∃ cs, commaSeparated (fieldChars ((key, v) :: fields)) = '"' :: cs := by
  cases fields with
  | nil => exact ⟨_, rfl⟩
  | cons field others => exact ⟨_, rfl⟩

theorem lastField_text (key : String) (v : Value) (rest : List Char) :
    commaSeparated (fieldChars [(key, v)]) ++ rest =
      stringText key ++ ':' :: (chars v ++ rest) := by
  rw [fieldChars, fieldChars, commaSeparated, List.append_assoc, List.cons_append]

theorem nextField_text (key : String) (v : Value) (field : String × Value) (others : Fields)
    (rest : List Char) :
    commaSeparated (fieldChars ((key, v) :: field :: others)) ++ rest =
      stringText key ++ ':' :: (chars v ++
        ',' :: (commaSeparated (fieldChars (field :: others)) ++ rest)) := by
  rw [fieldChars, fieldChars, commaSeparated_cons, ← fieldChars, List.append_assoc,
    List.append_assoc]
  rfl

section Steps

variable {fuel : Nat} {cs rest : List Char} {v : Value}

theorem readValue_list {c : Char} (gap : isGap c = false) (h : c ≠ ']') :
    readValue (fuel + 1) ('[' :: c :: cs) = readItems fuel [] (c :: cs) := by
  rw [readValue, skipGap_cons gap]
  split
  · rename_i heq
    cases heq
    exact absurd rfl h
  · rfl

theorem readItems_last (h : readValue fuel cs = some (v, ']' :: rest)) (acc : List Value) :
    readItems (fuel + 1) acc cs = some (.list (v :: acc).reverse, rest) := by
  rw [readItems, h]
  rfl

theorem readItems_more (h : readValue fuel cs = some (v, ',' :: rest)) (acc : List Value) :
    readItems (fuel + 1) acc cs = readItems fuel (v :: acc) (skipGap rest) := by
  rw [readItems, h]
  rfl

theorem readValue_object :
    readValue (fuel + 1) ('\x7b' :: '"' :: cs) = readFields fuel [] ('"' :: cs) := rfl

variable {key : String} {body : List Char}

theorem readFields_last (hkey : readText [] body = some (key, ':' :: cs)) (hcs : skipGap cs = cs)
    (h : readValue fuel cs = some (v, '\x7d' :: rest)) (acc : Fields) :
    readFields (fuel + 1) acc ('"' :: body) = some (.object (Entries.put key v acc), rest) := by
  rw [readFields, hkey]
  simp only [skipGap_cons (c := ':') (by decide), hcs, h]
  rfl

theorem readFields_more (hkey : readText [] body = some (key, ':' :: cs)) (hcs : skipGap cs = cs)
    (h : readValue fuel cs = some (v, ',' :: rest)) (acc : Fields) :
    readFields (fuel + 1) acc ('"' :: body) =
      readFields fuel (Entries.put key v acc) (skipGap rest) := by
  rw [readFields, hkey]
  simp only [skipGap_cons (c := ':') (by decide), hcs, h]
  rfl

end Steps

mutual

/-- A value that has been written is read back, and nothing of what comes after it is taken. -/
theorem readValue_chars (fuel : Nat) (v : Value) (h : v.Discrete) (hf : (chars v).length < fuel)
    {rest : List Char} (ends : EndsNumber rest) :
    readValue fuel (chars v ++ rest) = some (v, rest) := by
  cases fuel with
  | zero => cases hf
  | succ fuel =>
    cases v with
    | null => rfl
    | bool b => cases b <;> rfl
    | int n =>
      obtain ⟨c, cs, text, hc⟩ := toString_begins n
      have read := readNumber_toString n ends
      rw [text] at read
      rw [chars, text, List.cons_append, readValue_number hc, ← List.cons_append, read]
    | float x => exact h.elim
    | str s =>
      obtain ⟨body, text, read⟩ := readText_stringText s rest
      rw [chars, text, readValue, read]
      rfl
    | list items =>
      cases items with
      | nil => rfl
      | cons v items =>
        obtain ⟨c, cs, text, gap, hc⟩ := items_begin h.1 items
        have read := readItems_chars fuel v items h (by
          simp only [chars, List.length_cons, List.length_append, List.length_nil] at hf
          omega) [] rest
        rw [text] at read
        rw [chars, text, List.cons_append, List.append_assoc, List.cons_append,
          readValue_list gap hc]
        exact read
    | object fields =>
      cases fields with
      | nil => rfl
      | cons field fields =>
        obtain ⟨key, v⟩ := field
        obtain ⟨cs, text⟩ := fields_begin key v fields
        have read := readFields_chars fuel key v fields h.2 (by
          simp only [chars, List.length_cons, List.length_append, List.length_nil] at hf
          omega) [] h.1 rest
        rw [text] at read
        rw [chars, text, List.cons_append, List.append_assoc, List.cons_append, readValue_object]
        exact read

/-- The items of a list that have been written are read back after those before them. -/
theorem readItems_chars (fuel : Nat) (v : Value) (items : List Value)
    (h : DiscreteItems (v :: items))
    (hf : (commaSeparated (itemChars (v :: items))).length + 1 < fuel)
    (acc : List Value) (rest : List Char) :
    readItems fuel acc (commaSeparated (itemChars (v :: items)) ++ ']' :: rest) =
      some (.list (acc.reverse ++ v :: items), rest) := by
  cases fuel with
  | zero => cases hf
  | succ fuel =>
    cases items with
    | nil =>
      have read := readValue_chars fuel v h.1 (Nat.lt_of_succ_lt_succ hf)
        (endsNumber_bracket rest)
      exact (readItems_last read acc).trans (by rw [List.reverse_cons])
    | cons w others =>
      rw [itemChars, itemChars, commaSeparated_cons, ← itemChars] at hf ⊢
      simp only [List.length_append, List.length_cons] at hf
      obtain ⟨c, cs, text, gap, -⟩ := items_begin h.2.1 others
      have first := readValue_chars fuel v h.1 (by omega)
        (endsNumber_comma (commaSeparated (itemChars (w :: others)) ++ ']' :: rest))
      have more := readItems_chars fuel w others h.2 (by omega) (v :: acc) rest
      rw [List.append_assoc, List.cons_append, readItems_more first acc, text, List.cons_append,
        skipGap_cons gap, ← List.cons_append, ← text, more, List.reverse_cons, List.append_assoc]
      rfl

/-- The fields of an object that have been written are read back after those before them, if no
key comes twice. -/
theorem readFields_chars (fuel : Nat) (key : String) (v : Value) (fields : Fields)
    (h : DiscreteFields ((key, v) :: fields))
    (hf : (commaSeparated (fieldChars ((key, v) :: fields))).length + 1 < fuel)
    (acc : Fields) (distinct : (Entries.keys (acc ++ (key, v) :: fields)).Nodup)
    (rest : List Char) :
    readFields fuel acc (commaSeparated (fieldChars ((key, v) :: fields)) ++ '\x7d' :: rest) =
      some (.object (acc ++ (key, v) :: fields), rest) := by
  cases fuel with
  | zero => cases hf
  | succ fuel =>
    have new : key ∉ Entries.keys acc := by
      intro hkey
      rw [Entries.keys, List.map_append] at distinct
      exact (List.nodup_append.1 distinct).2.2 key hkey key List.mem_cons_self rfl
    cases fields with
    | nil =>
      obtain ⟨body, text, hkey⟩ := readText_stringText key (':' :: (chars v ++ '\x7d' :: rest))
      have last := readValue_chars fuel v h.1 (by
        simp only [fieldChars, commaSeparated, List.length_append, List.length_cons] at hf
        omega) (endsNumber_brace rest)
      rw [lastField_text, text, readFields_last hkey (skipGap_chars h.1 _) last,
        Entries.put_of_not_mem new]
    | cons field others =>
      obtain ⟨key', w⟩ := field
      have length := congrArg List.length (nextField_text key v (key', w) others [])
      simp only [List.length_append, List.length_cons, List.length_nil] at length
      generalize hmore : commaSeparated (fieldChars ((key', w) :: others)) = more at length
      obtain ⟨body, text, hkey⟩ :=
        readText_stringText key (':' :: (chars v ++ ',' :: (more ++ '\x7d' :: rest)))
      have first := readValue_chars fuel v h.1 (by omega)
        (endsNumber_comma (more ++ '\x7d' :: rest))
      have later := readFields_chars fuel key' w others h.2 (by rw [hmore]; omega)
        (acc ++ [(key, v)]) (by rwa [List.append_assoc]) rest
      obtain ⟨cs, begins⟩ := fields_begin key' w others
      rw [hmore] at later begins
      rw [nextField_text, hmore, text, readFields_more hkey (skipGap_chars h.1 _) first,
        Entries.put_of_not_mem new, begins, List.cons_append, skipGap_cons (by decide),
        ← List.cons_append, ← begins, later, List.append_assoc]
      rfl

end

/-- The JSON text of discrete data is read back as this data. -/
theorem read?_render {v : Value} (h : v.Discrete) : read? (render v) = some v := by
  have gap := skipGap_chars h []
  rw [List.append_nil] at gap
  have read := readValue_chars (2 * (chars v).length + 2) v h (by omega) endsNumber_nil
  rw [List.append_nil] at read
  simp only [read?, render, String.toList_ofList, gap, read]
  rfl

end TokenGate.Json
