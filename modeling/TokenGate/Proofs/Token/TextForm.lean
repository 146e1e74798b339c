import TokenGate.Proofs.Token.Multiset

/-!
# The text form of bags

A bag is written as all that it lists, with spaces in between. A text has identifiers as its words
only, so that a bag that is read from a text is read again from its text form. A member of a list
may be an identifier with a line feed behind it, which is a blank in the text form: what is read
there has the identifier in its place, and is the bag exactly if there is no such member.
-/

namespace TokenGate.TokenBag

variable {t : String} {ws : List String} {b : TokenBag}

/-- The text of a token name has one word: the identifier, without the line feed behind it. -/
theorem words_of_isTokenName (h : isTokenName t = true) :
    Text.words t = [Text.strip t] ∧ Text.isIdentifier (Text.strip t).toList = true := by
  rcases isTokenName_iff.1 h with named | ⟨u, named, rfl⟩
  · have solid := Text.solid_of_isIdentifier named
    rw [Text.strip_of_solid solid,
      Text.words_of_solid (Text.ne_nil_of_isIdentifier named) solid]
    exact ⟨rfl, named⟩
  · have solid := Text.solid_of_isIdentifier named
    have blank : ∀ c ∈ "\n".toList, Text.isBlank c = true :=
      List.forall_mem_singleton.2 (by decide)
    rw [Text.strip_append solid blank, Text.words_append blank,
      Text.words_of_solid (Text.ne_nil_of_isIdentifier named) solid]
    exact ⟨rfl, named⟩

/-- What is read from the text form of a bag of words is the bag of the identifiers in it. -/
theorem parse_toText_ofWords (nonempty : ws ≠ []) (named : ∀ w ∈ ws, isTokenName w = true) :
    parse (.str (ofWords ws).toText) = .ok (ofWords ((ofWords ws).toList.map Text.strip)) := by
  have perm := perm_toList_ofWords ws
  have word {t : String} (ht : t ∈ (ofWords ws).toList) :=
    words_of_isTokenName (named t (perm.mem_iff.1 ht))
  have words : Text.words (ofWords ws).toText = (ofWords ws).toList.map Text.strip := by
    rw [toText, Text.words_intercalate, List.map_eq_flatMap]
    exact List.flatMap_congr fun t ht => (word ht).1
  have given : Wording (.str (ofWords ws).toText) ((ofWords ws).toList.map Text.strip) :=
    words ▸ .text _
  refine (parse_eq_ok given.there).2 ⟨_, given, fun none => ?_, fun w hw => ?_, rfl⟩
  · rw [List.map_eq_nil_iff] at none
    exact nonempty (List.nil_perm.1 (none ▸ perm))
  · obtain ⟨t, ht, rfl⟩ := List.mem_map.1 hw
    exact isTokenName_iff.2 (.inl (word ht).2)

/-- The text form keeps a bag of words exactly if all of them are identifiers. -/
theorem ofWords_map_strip_iff (named : ∀ w ∈ ws, isTokenName w = true) :
    (ofWords ((ofWords ws).toList.map Text.strip)).items = (ofWords ws).items ↔
      ∀ w ∈ ws, Text.isIdentifier w.toList = true := by
  have perm := perm_toList_ofWords ws
  constructor
  · intro same w hw
    have sameTypes : (ofWords ((ofWords ws).toList.map Text.strip)).types = (ofWords ws).types :=
      congrArg Entries.keys same
    have mem := mem_types_ofWords.2 hw
    rw [← sameTypes, mem_types_ofWords] at mem
    obtain ⟨t, ht, rfl⟩ := List.mem_map.1 mem
    exact (words_of_isTokenName (named t (perm.mem_iff.1 ht))).2
  · intro identifiers
    have kept : (ofWords ws).toList.map Text.strip = (ofWords ws).toList := by
      refine (List.map_congr_left fun t ht => ?_).trans (List.map_id _)
      exact Text.strip_of_solid (Text.solid_of_isIdentifier (identifiers t (perm.mem_iff.1 ht)))
    rw [kept, ofWords_toList (counted_ofWords ws)]

/-- Every token that is read is an identifier, or one with a line feed behind it; the latter only if
it is not read from a text. The text form of a bag that is read is a token list again. What is read
there is the bag of the identifiers, which is the bag itself exactly if its tokens are
identifiers. -/
theorem parse_toText {v : Value} (there : v ≠ .null) (h : parse v = .ok b) :
    (∀ t ∈ b.types, Text.isIdentifier t.toList = true ∨
      ∃ u : String, Text.isIdentifier u.toList = true ∧ t = u ++ "\n") ∧
    (∀ s, v = .str s → ∀ t ∈ b.types, Text.isIdentifier t.toList = true) ∧
    ∃ b', parse (.str b.toText) = .ok b' ∧ b' = ofWords (b.toList.map Text.strip) ∧
      (b'.items = b.items ↔ ∀ t ∈ b.types, Text.isIdentifier t.toList = true) := by
  obtain ⟨ws, given, nonempty, named, rfl⟩ := (parse_eq_ok there).1 h
  simp only [mem_types_ofWords]
  refine ⟨fun t ht => isTokenName_iff.1 (named t ht), fun s text t ht => ?_,
    _, parse_toText_ofWords nonempty named, rfl, ofWords_map_strip_iff named⟩
  subst text
  obtain ⟨⟩ := given
  rw [← isTokenName_of_mem_words ht]
  exact named t ht

/-- A list in which a name comes with a line feed and without. -/
def brokenNames : Value := .list [.str "a\n", .str "b", .str "a"]

/-- The names with and without a line feed are one name in the text form. -/
theorem parse_toText_brokenNames :
    ∃ b b', parse brokenNames = .ok b ∧ b.types = ["a\n", "b", "a"] ∧
      parse (.str b.toText) = .ok b' ∧ b'.items = [("a", 2), ("b", 1)] := by
  have given : Wording brokenNames ["a\n", "b", "a"] := .list ["a\n", "b", "a"]
  have h := (parse_eq_ok given.there).2 ⟨_, given, List.cons_ne_nil _ _, by decide +kernel, rfl⟩
  obtain ⟨-, -, b', read, rfl, -⟩ := parse_toText given.there h
  exact ⟨_, _, h, by decide +kernel, read, by decide +kernel⟩

/-- It is not so that all tokens that are read are identifiers and every bag that is read is read
again from its text form. -/
theorem not_identifiers_of_parse :
    ¬ ∀ (v : Value) (b : TokenBag), ((∃ s, v = .str s) ∨ ∃ items, v = .list items) →
      parse v = .ok b →
      (∀ t ∈ b.types, Text.isIdentifier t.toList = true) ∧
        ∃ b', parse (.str b.toText) = .ok b' ∧ b'.items = b.items := by
  intro always
  have given : Wording brokenNames ["a\n", "b", "a"] := .list ["a\n", "b", "a"]
  have h := (parse_eq_ok given.there).2 ⟨_, given, List.cons_ne_nil _ _, by decide +kernel, rfl⟩
  have identifier := (always _ _ (.inr ⟨_, rfl⟩) h).1 "a\n" (by decide +kernel)
  exact absurd identifier (by decide)

end TokenGate.TokenBag
