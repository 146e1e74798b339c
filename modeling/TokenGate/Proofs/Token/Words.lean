import TokenGate.Proofs.FirstSeen
import TokenGate.Proofs.Result
import TokenGate.Proofs.Text.Words
import TokenGate.Proofs.Token.Bag

/-!
# Bags of words

A token list gives words: those of a text, the members of a list, the keys of an object. It is read
exactly if there are any and all of them are token names, and what is read is the bag of these
words, in the order in which they first occur.
-/

namespace TokenGate

/-- A token name is an identifier, or one with a line feed behind it. -/
theorem isTokenName_iff {t : String} : isTokenName t = true ↔
    Text.isIdentifier t.toList = true ∨
      ∃ u : String, Text.isIdentifier u.toList = true ∧ t = u ++ "\n" := by
  have noFeed {cs : List Char} (h : Text.isIdentifier cs = true) : cs.getLast? ≠ some '\n' := by
    intro last
    have solid := Text.solid_of_isIdentifier h _ (List.mem_of_getLast? last)
    exact absurd solid (by decide)
  rw [isTokenName]
  constructor
  · intro h
    split at h
    · rename_i last
      refine .inr ⟨String.ofList t.toList.dropLast, by rwa [String.toList_ofList], ?_⟩
      rw [← String.toList_inj, String.toList_append, String.toList_ofList]
      exact (List.dropLast_append_getLast? _ last).symm
    · exact .inl h
  · rintro (h | ⟨u, h, rfl⟩)
    · rwa [if_neg (noFeed h)]
    · simpa using h

namespace TokenBag

variable {ws : List String} {b : TokenBag}

/-- What a token list gives. -/
inductive Wording : Value → List String → Prop
  | text (s : String) : Wording (.str s) (Text.words s)
  | list (ws : List String) : Wording (.list (ws.map Value.str)) ws
  | object (fields : Fields) : Wording (.object fields) (Entries.keys fields)

theorem Wording.there {v : Value} (h : Wording v ws) : v ≠ .null := by
  rintro rfl
  cases h

/-- A token list gives no other words. -/
theorem Wording.unique {v : Value} {ws' : List String} (h : Wording v ws) (h' : Wording v ws') :
    ws = ws' := by
  cases h with
  | text s =>
    cases h'
    rfl
  | list ws =>
    generalize same : Value.list (ws.map .str) = v at h'
    cases h' with
    | list ws' => exact Function.Injective.list_map (fun _ _ => Value.str.inj) (Value.list.inj same)
    | text s => cases same
    | object fields => cases same
  | object fields =>
    cases h'
    rfl

theorem collect_words (source : String) (named : ∀ w ∈ ws, isTokenName w = true) (b : TokenBag) :
    ofParts.collect source b (ws.map Value.str) = .ok (ws.foldl add b) := by
  induction ws generalizing b with
  | nil => rfl
  | cons w rest ih =>
    rw [List.map_cons, ofParts.collect, if_pos (named w List.mem_cons_self), List.foldl_cons]
    exact ih (fun x hx => named x (List.mem_cons_of_mem w hx)) _

/-- Only token names are collected. -/
theorem words_of_collect {source : String} {parts : List Value} {b b' : TokenBag}
    (h : ofParts.collect source b parts = .ok b') :
    ∃ ws : List String, parts = ws.map Value.str ∧ ∀ w ∈ ws, isTokenName w = true := by
  induction parts generalizing b with
  | nil => exact ⟨[], rfl, nofun⟩
  | cons part rest ih =>
    cases part with
    | str w =>
      simp only [ofParts.collect] at h
      split at h
      · rename_i hw
        obtain ⟨ws, rfl, named⟩ := ih h
        exact ⟨w :: ws, rfl, List.forall_mem_cons.2 ⟨hw, named⟩⟩
      · cases h
    | _ => cases h

/-- Members are read as a bag exactly if there are any and all of them are token names. -/
theorem ofParts_eq_ok {source : String} {parts : List Value} : ofParts source parts = .ok b ↔
    ∃ ws : List String, parts = ws.map Value.str ∧ ws ≠ [] ∧ (∀ w ∈ ws, isTokenName w = true) ∧
      b = ofWords ws := by
  constructor
  · intro h
    rw [ofParts] at h
    split at h
    · cases h
    · rename_i some
      obtain ⟨ws, rfl, named⟩ := words_of_collect h
      rw [collect_words source named] at h
      cases h
      exact ⟨ws, rfl, by simpa using some, named, rfl⟩
  · rintro ⟨ws, rfl, some, named, rfl⟩
    rw [ofParts, if_neg (by simpa using some)]
    exact collect_words source named .empty

/-- A token list that is there is read as the bag of its words, if it has any and all of them are
token names. -/
theorem parse_eq_ok {v : Value} (there : v ≠ .null) : parse v = .ok b ↔
    ∃ ws, Wording v ws ∧ ws ≠ [] ∧ (∀ w ∈ ws, isTokenName w = true) ∧ b = ofWords ws := by
  have members {source : String} {parts : List Value}
      (hv : ∀ ws : List String, Wording v ws ↔ parts = ws.map Value.str) :
      ofParts source parts = .ok b ↔
        ∃ ws, Wording v ws ∧ ws ≠ [] ∧ (∀ w ∈ ws, isTokenName w = true) ∧ b = ofWords ws := by
    simp only [ofParts_eq_ok, hv]
  have injective : Function.Injective Value.str := fun _ _ => Value.str.inj
  cases v with
  | null => exact absurd rfl there
  | str s =>
    refine members fun ws => ⟨fun h => ?_, fun h => ?_⟩
    · cases h
      rfl
    · rw [← injective.list_map h]
      exact .text s
  | list items =>
    refine members fun ws => ⟨fun h => ?_, fun h => ?_⟩
    · cases h
      rfl
    · rw [h]
      exact .list ws
  | object fields =>
    refine members fun ws => ⟨fun h => ?_, fun h => ?_⟩
    · cases h
      rfl
    · rw [← injective.list_map h]
      exact .object fields
  | _ =>
    constructor
    · intro h
      cases h
    · rintro ⟨ws, h, -⟩
      cases h

/-- A text is read exactly if it has words and all of them are token names. -/
theorem parse_str_iff {s : String} : (∃ b, parse (.str s) = .ok b) ↔
    Text.words s ≠ [] ∧ ∀ w ∈ Text.words s, isTokenName w = true := by
  have there : Value.str s ≠ .null := nofun
  constructor
  · rintro ⟨b, h⟩
    obtain ⟨ws, ⟨⟩, nonempty, named, -⟩ := (parse_eq_ok there).1 h
    exact ⟨nonempty, named⟩
  · rintro ⟨nonempty, named⟩
    exact ⟨_, (parse_eq_ok there).2 ⟨_, .text s, nonempty, named, rfl⟩⟩

/-- What is wrong with a list of words: the first that is no token name. -/
theorem invalid_of_collect {source : String} {e : TokenError}
    (h : ofParts.collect source b (ws.map Value.str) = .error e) :
    ∃ before w after, ws = before ++ w :: after ∧ (∀ u ∈ before, isTokenName u = true) ∧
      isTokenName w = false ∧ e = .invalid (.str w) source := by
  induction ws generalizing b with
  | nil => cases h
  | cons w rest ih =>
    rw [List.map_cons, ofParts.collect] at h
    split at h
    · rename_i hw
      obtain ⟨before, w', after, rfl, named, hw', rfl⟩ := ih h
      exact ⟨w :: before, w', after, rfl, List.forall_mem_cons.2 ⟨hw, named⟩, hw', rfl⟩
    · rename_i hw
      cases h
      exact ⟨[], w, rest, rfl, List.forall_mem_nil _, eq_false_of_ne_true hw, rfl⟩

/-- A text is refused if it has no words, or else for the first that is no token name. -/
theorem parse_str_error {s : String} {e : TokenError} (h : parse (.str s) = .error e) :
    (Text.words s = [] ∧ e = .empty s) ∨
    ∃ before w after, Text.words s = before ++ w :: after ∧
      (∀ u ∈ before, isTokenName u = true) ∧ isTokenName w = false ∧
      e = .invalid (.str w) s := by
  rw [parse, ofParts] at h
  split at h
  · rename_i none
    cases h
    exact .inl ⟨by simpa using none, rfl⟩
  · exact .inr (invalid_of_collect h)

theorem types_foldl_add (ws : List String) (b : TokenBag) :
    (ws.foldl add b).types =
      ws.foldl (fun seen t => if t ∈ seen then seen else seen ++ [t]) b.types := by
  induction ws generalizing b with
  | nil => rfl
  | cons w rest ih => rw [List.foldl_cons, ih, types_add, List.foldl_cons]

/-- A bag of words has the words in the order in which they first occur. -/
theorem firstSeen_types_ofWords (ws : List String) : FirstSeen ws (ofWords ws).types := by
  rw [ofWords, types_foldl_add, types_empty]
  exact FirstSeen.nil.foldl ws

theorem mem_types_ofWords {token : String} : token ∈ (ofWords ws).types ↔ token ∈ ws :=
  (firstSeen_types_ofWords ws).mem token

end TokenBag
end TokenGate
