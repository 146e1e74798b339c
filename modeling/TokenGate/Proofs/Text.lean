import Mathlib.Data.List.DropRight
import Mathlib.Data.List.TakeWhile
import TokenGate.Text.Blank
import TokenGate.Text.Identifier

/-!
# Letters and digits in texts

Cutting characters of a class off the ends of a text takes no other characters away, and what comes
behind a text does not matter to its front if it begins with none of the class. Letters and digits
are neither blanks nor underscores, so that they survive when a name is cut to its plain form.
-/

namespace TokenGate.Text

variable {p q : Char → Bool}

theorem any_dropWhile (apart : ∀ c, q c = true → p c = false) (cs : List Char) :
    (cs.dropWhile p).any q = cs.any q := by
  induction cs with
  | nil => rfl
  | cons c rest ih =>
    cases hp : p c with
    | true =>
      have hq : q c = false := by
        rw [← Bool.not_eq_true]
        intro hq
        rw [apart c hq] at hp
        cases hp
      rw [List.dropWhile_cons_of_pos hp, ih, List.any_cons, hq, Bool.false_or]
    | false => rw [List.dropWhile_cons_of_neg (by simp [hp])]

/-- What is cut off the ends is of the class. -/
theorem any_trimChars (apart : ∀ c, q c = true → p c = false) (cs : List Char) :
    (trimChars p cs).any q = cs.any q := by
  rw [trimChars, dropEndWhile, List.any_reverse, any_dropWhile apart, List.any_reverse,
    any_dropWhile apart]

/-- Nothing is left of a list exactly if all of it is of the class that is cut off. -/
theorem trimChars_eq_nil_iff (cs : List Char) :
    trimChars p cs = [] ↔ cs.any (fun c => !p c) = false := by
  have apart : ∀ c, (!p c) = true → p c = false := by simp
  rw [trimChars, dropEndWhile, List.reverse_eq_nil_iff, List.dropWhile_eq_nil_iff,
    ← any_dropWhile apart, List.any_eq_false]
  simp

/-- When the characters of a class have been cut off, there are no more of them at the ends. -/
@[simp] theorem trimChars_trimChars (cs : List Char) :
    trimChars p (trimChars p cs) = trimChars p cs := by
  have front : (trimChars p cs).dropWhile p = trimChars p cs := by
    rw [List.dropWhile_eq_self_iff]
    intro nonempty
    have same : trimChars p cs <+: cs.dropWhile p := List.rdropWhile_prefix p _
    rw [same.getElem nonempty]
    exact List.dropWhile_eq_self_iff.1 (List.dropWhile_idempotent p cs) _
  rw [trimChars, front]
  exact List.rdropWhile_idempotent p _

section Stops

variable {more : List Char}

/-- What goes on behind a text begins with no character of the class. -/
def Stops (p : Char → Bool) (more : List Char) : Prop := ∀ c ∈ more.head?, p c = false

theorem takeWhile_append_of_stops (h : Stops p more) (cs : List Char) :
    (cs ++ more).takeWhile p = cs.takeWhile p := by
  induction cs with
  | nil =>
    cases more with
    | nil => rfl
    | cons c more => exact List.takeWhile_cons_of_neg (by simp [h c rfl])
  | cons c cs ih => rw [List.cons_append, List.takeWhile_cons, List.takeWhile_cons, ih]

theorem dropWhile_append_of_stops (h : Stops p more) (cs : List Char) :
    (cs ++ more).dropWhile p = cs.dropWhile p ++ more := by
  induction cs with
  | nil =>
    cases more with
    | nil => rfl
    | cons c more => exact List.dropWhile_cons_of_neg (by simp [h c rfl])
  | cons c cs ih =>
    rw [List.cons_append, List.dropWhile_cons, List.dropWhile_cons, ih]
    split <;> rfl

end Stops

/-- The codes of the letters and digits, from the first digit to the last small letter. -/
theorem toNat_of_isLetterOrDigit {c : Char} (h : isLetterOrDigit c = true) :
    48 ≤ c.toNat ∧ c.toNat ≤ 122 := by
  simp only [isLetterOrDigit, isLetter, Char.le_def, UInt32.le_iff_toNat_le, Bool.or_eq_true,
    Bool.and_eq_true, decide_eq_true_eq] at h
  unfold Char.toNat
  rcases h with (⟨low, high⟩ | ⟨low, high⟩) | ⟨low, high⟩
  · change 97 ≤ _ at low
    change _ ≤ 122 at high
    omega
  · change 65 ≤ _ at low
    change _ ≤ 90 at high
    omega
  · change 48 ≤ _ at low
    change _ ≤ 57 at high
    omega

theorem isBlank_of_isLetterOrDigit {c : Char} (h : isLetterOrDigit c = true) :
    isBlank c = false := by
  have range := toNat_of_isLetterOrDigit h
  simp only [isBlank, Bool.or_eq_false_iff, Bool.and_eq_false_iff, decide_eq_false_iff_not,
    beq_eq_false_iff_ne]
  omega

theorem ne_underscore_of_isLetterOrDigit {c : Char} (h : isLetterOrDigit c = true) :
    (c == '_') = false := by
  rw [beq_eq_false_iff_ne]
  rintro rfl
  exact absurd h (by decide)

theorem isNamePart_of_isIdentifier {cs : List Char} (h : isIdentifier cs = true) :
    ∀ c ∈ cs, isNamePart c = true := by
  intro c hc
  cases cs with
  | nil => cases hc
  | cons first rest =>
    rw [isIdentifier, Bool.and_eq_true, List.all_eq_true] at h
    rcases List.mem_cons.1 hc with rfl | hc
    · have start := h.1
      simp only [isNameStart, isNamePart, isLetterOrDigit, Bool.or_eq_true] at start ⊢
      exact start.imp_left .inl
    · exact h.2 c hc

/-- Whether a text has a letter or digit in it. -/
def hasLetterOrDigit (s : String) : Bool := s.toList.any isLetterOrDigit

/-- The blanks at the ends of a text are not among its letters and digits. -/
@[simp] theorem hasLetterOrDigit_strip (s : String) :
    hasLetterOrDigit (strip s) = hasLetterOrDigit s := by
  rw [hasLetterOrDigit, strip, String.toList_ofList,
    any_trimChars fun _ => isBlank_of_isLetterOrDigit]
  rfl

@[simp] theorem strip_strip (s : String) : strip (strip s) = strip s := by
  rw [strip, strip, String.toList_ofList, trimChars_trimChars]

end TokenGate.Text
