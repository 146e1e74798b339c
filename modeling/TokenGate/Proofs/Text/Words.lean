import TokenGate.Proofs.Text

/-!
# Splitting texts into words

Whatever stands before and after a blank is split on its own. So a text without blanks is a word,
blanks around it do not matter, and texts that are written with spaces between them have the words
of each of them.
-/

namespace TokenGate.Text

variable {c : Char} {word cs rest : List Char}

/-- What comes before a blank and what comes after it are split on their own. -/
theorem wordsFrom_append_cons (hc : isBlank c = true) (word cs rest : List Char) :
    wordsFrom word (cs ++ c :: rest) = wordsFrom word cs ++ wordsFrom [] rest := by
  induction cs generalizing word with
  | nil => cases word <;> simp [wordsFrom, hc]
  | cons x cs ih =>
    rw [List.cons_append, wordsFrom, wordsFrom]
    split
    · split
      · exact ih []
      · rw [ih, List.cons_append]
    · exact ih (x :: word)

/-- Characters that are not blank belong to the word that is being read. -/
theorem wordsFrom_of_solid (solid : ∀ c ∈ cs, isBlank c = false) :
    wordsFrom word cs = if (word.reverse ++ cs).isEmpty then [] else [word.reverse ++ cs] := by
  induction cs generalizing word with
  | nil => cases word <;> simp [wordsFrom]
  | cons x cs ih =>
    rw [wordsFrom, if_neg (by simp [solid x List.mem_cons_self]),
      ih fun c hc => solid c (List.mem_cons_of_mem x hc)]
    simp

/-- There are no words in blanks. -/
theorem wordsFrom_of_blank (blank : ∀ c ∈ cs, isBlank c = true) : wordsFrom [] cs = [] := by
  induction cs with
  | nil => rfl
  | cons c rest ih =>
    rw [wordsFrom, if_pos (blank c List.mem_cons_self)]
    exact ih fun x hx => blank x (List.mem_cons_of_mem c hx)

/-- Blanks behind a text do not change its words. -/
theorem words_append {s t : String} (blank : ∀ c ∈ t.toList, isBlank c = true) :
    words (s ++ t) = words s := by
  rw [words, words, String.toList_append]
  cases hcs : t.toList with
  | nil => rw [List.append_nil]
  | cons c rest =>
    rw [hcs, List.forall_mem_cons] at blank
    rw [wordsFrom_append_cons blank.1, wordsFrom_of_blank blank.2, List.append_nil]

theorem words_space (s t : String) : words (s ++ " " ++ t) = words s ++ words t := by
  have space : (s ++ " " ++ t).toList = s.toList ++ ' ' :: t.toList := by simp
  rw [words, space, wordsFrom_append_cons (by decide), List.map_append]
  rfl

/-- Texts with spaces between them have the words of each of them. -/
theorem words_intercalate (ts : List String) : words (" ".intercalate ts) = ts.flatMap words := by
  induction ts with
  | nil => rfl
  | cons t rest ih =>
    cases rest with
    | nil => simp
    | cons u rest =>
      rw [String.intercalate_cons_cons, words_space, ih]
      rfl

/-- No word is empty or has a blank in it. -/
theorem solid_of_mem_words {s w : String} (h : w ∈ words s) :
    ∀ c ∈ w.toList, isBlank c = false := by
  obtain ⟨cs, hcs, rfl⟩ := List.mem_map.1 h
  rw [String.toList_ofList]
  exact (wordsFrom_spec [] s.toList nofun cs hcs).2

/-- A text without blanks is a word. -/
theorem words_of_solid {s : String} (nonempty : s.toList ≠ [])
    (solid : ∀ c ∈ s.toList, isBlank c = false) : words s = [s] := by
  rw [words, wordsFrom_of_solid solid, if_neg (by simpa using nonempty)]
  simp

theorem dropWhile_of_solid (solid : ∀ c ∈ cs, isBlank c = false) : cs.dropWhile isBlank = cs := by
  cases cs with
  | nil => rfl
  | cons c rest =>
    rw [List.dropWhile_cons_of_neg (by simp [solid c List.mem_cons_self])]

theorem trimChars_append (solid : ∀ c ∈ cs, isBlank c = false)
    (blank : ∀ c ∈ rest, isBlank c = true) : trimChars isBlank (cs ++ rest) = cs := by
  have front : (cs ++ rest).dropWhile isBlank = if cs.isEmpty then [] else cs ++ rest := by
    cases cs with
    | nil => simpa using blank
    | cons c cs =>
      rw [List.cons_append, List.dropWhile_cons_of_neg (by simp [solid c List.mem_cons_self])]
      rfl
  rw [trimChars, front]
  split
  · rename_i none
    rw [List.isEmpty_iff.1 none]
    rfl
  · rw [dropEndWhile, List.reverse_append,
      List.dropWhile_append_of_pos fun c hc => blank c (List.mem_reverse.1 hc),
      dropWhile_of_solid fun c hc => solid c (List.mem_reverse.1 hc), List.reverse_reverse]

/-- Blanks behind a text without blanks are cut off, and nothing else. -/
theorem strip_append {s t : String} (solid : ∀ c ∈ s.toList, isBlank c = false)
    (blank : ∀ c ∈ t.toList, isBlank c = true) : strip (s ++ t) = s := by
  rw [strip, String.toList_append, trimChars_append solid blank, String.ofList_toList]

theorem strip_of_solid {s : String} (solid : ∀ c ∈ s.toList, isBlank c = false) : strip s = s := by
  have bare := strip_append (t := "") solid nofun
  rwa [String.append_empty] at bare

theorem isBlank_of_isNamePart {c : Char} (h : isNamePart c = true) : isBlank c = false := by
  rw [isNamePart, Bool.or_eq_true] at h
  rcases h with h | h
  · exact isBlank_of_isLetterOrDigit h
  · rw [beq_iff_eq.1 h]
    decide

theorem solid_of_isIdentifier (h : isIdentifier cs = true) : ∀ c ∈ cs, isBlank c = false :=
  fun c hc => isBlank_of_isNamePart (isNamePart_of_isIdentifier h c hc)

theorem ne_nil_of_isIdentifier (h : isIdentifier cs = true) : cs ≠ [] := by
  rintro rfl
  cases h

end TokenGate.Text
