import TokenGate.Proofs.Text

/-!
# Runs of letters and digits

A text has the letters and digits of its runs, in order, and other characters between them. A run
goes on as long as it can, so that what stands on either side of another character has its runs by
itself; and blocks of letters and digits are the runs of what is written with underscores between
them.
-/

namespace TokenGate.Text

variable {c : Char} {cs xs : List Char} {blocks : List (List Char)}

/-- The runs of letters and digits in a text, each as long as can be. -/
def runs (cs : List Char) : List (List Char) :=
  (cs.splitOnP fun c => !isLetterOrDigit c).filter fun run => !run.isEmpty

/-- Letters and digits, at least one of them. -/
structure IsRun (run : List Char) : Prop where
  nonempty : run ≠ []
  solid : ∀ c ∈ run, isLetterOrDigit c = true

/-- What comes before another character and what comes after it have runs of their own. -/
theorem runs_append_cons (hc : isLetterOrDigit c = false) (xs cs : List Char) :
    runs (xs ++ c :: cs) = runs xs ++ runs cs := by
  rw [runs, List.splitOnP_append_cons _ _ (by simp [hc]), List.filter_append]
  rfl

/-- Letters and digits alone are one run, if there are any. -/
theorem runs_of_solid (solid : ∀ c ∈ cs, isLetterOrDigit c = true) :
    runs cs = if cs.isEmpty then [] else [cs] := by
  rw [runs, List.splitOnP_eq_singleton (by simpa using solid)]
  cases cs <;> rfl

theorem IsRun.runs_eq (h : IsRun cs) : runs cs = [cs] := by
  rw [runs_of_solid h.solid, if_neg (by simpa using h.nonempty)]

theorem isRun_of_mem_runs (h : xs ∈ runs cs) : IsRun xs := by
  obtain ⟨mem, nonempty⟩ := List.mem_filter.1 h
  refine ⟨by simpa using nonempty, ?_⟩
  clear h nonempty
  induction cs generalizing xs with
  | nil =>
    rw [List.splitOnP_nil, List.mem_singleton] at mem
    subst mem
    exact nofun
  | cons c cs ih =>
    rw [List.splitOnP_cons_eq_if_modifyHead] at mem
    split at mem
    · rcases List.mem_cons.1 mem with rfl | mem
      · exact nofun
      · exact ih mem
    · rename_i hc
      obtain ⟨first, others, pieces⟩ := List.exists_cons_of_ne_nil
        (List.splitOnP_ne_nil (fun c => !isLetterOrDigit c) cs)
      rw [pieces] at mem ih
      rcases List.mem_cons.1 mem with rfl | mem
      · exact List.forall_mem_cons.2 ⟨by simpa using hc, ih List.mem_cons_self⟩
      · exact ih (List.mem_cons_of_mem _ mem)

/-- Runs that are written with underscores between them are found again. -/
theorem runs_intercalate (h : ∀ b ∈ blocks, IsRun b) :
    runs (['_'].intercalate blocks) = blocks := by
  induction blocks with
  | nil => rfl
  | cons b rest ih =>
    rw [List.forall_mem_cons] at h
    cases rest with
    | nil => simpa using h.1.runs_eq
    | cons b' rest =>
      rw [List.intercalate_cons_cons, List.append_assoc, List.singleton_append,
        runs_append_cons (by decide), ih h.2, h.1.runs_eq]
      rfl

theorem IsRun.stops (h : IsRun cs) : Stops (· == '_') cs := by
  intro c hc
  exact ne_underscore_of_isLetterOrDigit (h.solid c (List.mem_of_mem_head? hc))

theorem IsRun.reverse (h : IsRun cs) : IsRun cs.reverse :=
  ⟨by simpa using h.nonempty, by simpa using h.solid⟩

theorem Stops.append {p : Char → Bool} (h : Stops p cs) (nonempty : cs ≠ []) (xs : List Char) :
    Stops p (cs ++ xs) := by
  obtain ⟨c, rest, rfl⟩ := List.exists_cons_of_ne_nil nonempty
  exact h

/-- Underscores that are written between runs are at neither end. -/
theorem stops_intercalate (h : ∀ b ∈ blocks, IsRun b) :
    Stops (· == '_') (['_'].intercalate blocks) ∧
      Stops (· == '_') (['_'].intercalate blocks).reverse := by
  induction blocks with
  | nil => exact ⟨nofun, nofun⟩
  | cons b rest ih =>
    rw [List.forall_mem_cons] at h
    cases rest with
    | nil => simpa using And.intro h.1.stops h.1.reverse.stops
    | cons b' rest =>
      have more : ['_'].intercalate (b' :: rest) ≠ [] := by
        intro none
        have found := runs_intercalate h.2
        rw [none] at found
        cases found
      rw [List.intercalate_cons_cons, List.append_assoc, List.reverse_append, List.reverse_append,
        List.append_assoc]
      exact ⟨h.1.stops.append h.1.nonempty _, (ih h.2).2.append (by simpa using more) _⟩

/-- What is of a class is cut off both ends, up to where something else begins. -/
theorem trimChars_middle {p : Char → Bool} {before after : List Char}
    (hb : ∀ c ∈ before, p c = true) (ha : ∀ c ∈ after, p c = true) (front : Stops p cs)
    (back : Stops p cs.reverse) : trimChars p (before ++ (cs ++ after)) = cs := by
  by_cases nonempty : cs = []
  · subst nonempty
    rw [trimChars_eq_nil_iff, List.nil_append, List.any_append, Bool.or_eq_false_iff]
    simpa using ⟨hb, ha⟩
  · rw [trimChars, dropWhile_append_of_stops (front.append nonempty _),
      List.dropWhile_eq_nil_iff.2 hb, dropEndWhile, List.nil_append, List.reverse_append,
      dropWhile_append_of_stops back, List.dropWhile_eq_nil_iff.2 (by simpa using ha),
      List.nil_append, List.reverse_reverse]

end TokenGate.Text
