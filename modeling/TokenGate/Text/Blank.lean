/-!
# Blank characters

The characters that count as white space in token lists and conditions, and the three
operations that depend on them: cutting blanks off the end of a text, off both ends, and
splitting a text into its words. Words are never empty and hold no blank.
-/

namespace TokenGate.Text

/-- White space: the ASCII controls tab to carriage return and the four separators
U+001C to U+001F, the space, next line, and the Unicode spaces and line separators. -/
def isBlank (c : Char) : Bool :=
  let n := c.toNat
  (0x09 ≤ n && n ≤ 0x0D) || (0x1C ≤ n && n ≤ 0x20) || n == 0x85 || n == 0xA0 || n == 0x1680 ||
    (0x2000 ≤ n && n ≤ 0x200A) || n == 0x2028 || n == 0x2029 || n == 0x202F || n == 0x205F ||
    n == 0x3000

/-- White space in the narrower sense of the Unicode property of that name, which leaves
out the separators U+001C to U+001F. -/
def isUnicodeSpace (c : Char) : Bool :=
  isBlank c && !(0x1C ≤ c.toNat && c.toNat ≤ 0x1F)

/-- Cuts the characters of a class off the end of a list. -/
def dropEndWhile (p : Char → Bool) (cs : List Char) : List Char :=
  (cs.reverse.dropWhile p).reverse

/-- Cuts the characters of a class off both ends of a list. -/
def trimChars (p : Char → Bool) (cs : List Char) : List Char :=
  dropEndWhile p (cs.dropWhile p)

/-- A text without the blanks at its two ends. -/
def strip (s : String) : String :=
  String.ofList (trimChars isBlank s.toList)

/-- Collects the words of a text: `word` is the one being read, in reverse. -/
def wordsFrom (word : List Char) : List Char → List (List Char)
  | [] => if word.isEmpty then [] else [word.reverse]
  | c :: rest =>
      if isBlank c then
        if word.isEmpty then wordsFrom [] rest else word.reverse :: wordsFrom [] rest
      else wordsFrom (c :: word) rest

/-- The words of a text: its maximal runs of characters that are not blank, in order. -/
def words (s : String) : List String :=
  (wordsFrom [] s.toList).map String.ofList

/-- No word is empty, and none holds a blank. -/
theorem wordsFrom_spec (word cs : List Char) (hw : ∀ c ∈ word, isBlank c = false) :
    ∀ w ∈ wordsFrom word cs, w ≠ [] ∧ ∀ c ∈ w, isBlank c = false := by
  induction cs generalizing word with
  | nil =>
    intro w h
    cases word with
    | nil => simp [wordsFrom] at h
    | cons a t =>
      simp only [wordsFrom, List.isEmpty_cons, Bool.false_eq_true, ↓reduceIte,
        List.mem_singleton] at h
      subst h
      exact ⟨by simp, fun c hc => hw c (List.mem_reverse.1 hc)⟩
  | cons c rest ih =>
    intro w h
    rw [wordsFrom] at h
    split at h
    · split at h
      · exact ih [] (by simp) w h
      · rename_i hne
        rcases List.mem_cons.1 h with rfl | h
        · refine ⟨?_, fun x hx => hw x (List.mem_reverse.1 hx)⟩
          cases word with
          | nil => simp at hne
          | cons a t => simp
        · exact ih [] (by simp) w h
    · rename_i hc
      refine ih (c :: word) (fun x hx => ?_) w h
      rcases List.mem_cons.1 hx with rfl | hx
      · simpa using hc
      · exact hw x hx

end TokenGate.Text
