import TokenGate.Proofs.Automaton.Naming
import TokenGate.Proofs.Text.Runs

/-!
# The normal form of a name

The normal form of a name consists of its runs of letters and digits, in upper case and with
underscores between them. So nothing but these runs matters to it, it is its own normal form, and
two events have one label exactly if they are of one kind and come from names with one normal form.
-/

namespace TokenGate

open Text Result

/-- The runs of letters and digits in a name, in upper case. -/
def upperRuns (cs : List Char) : List (List Char) := (runs cs).map (List.map Char.toUpper)

/-- One or more blocks of capitals and digits, with underscores between them. -/
inductive Normal (form : String) : Prop where
  | blocks {bs : List (List Char)} (some : bs ≠ []) (nonempty : ∀ b ∈ bs, b ≠ [])
      (capital : ∀ b ∈ bs, ∀ c ∈ b, c.isUpper = true ∨ c.isDigit = true)
      (written : form.toList = ['_'].intercalate bs)

variable {c : Char} {cs : List Char} {s t form : String}

/-- A letter or digit remains one in upper case, and then is the same in upper case. -/
theorem toUpper_of_isLetterOrDigit (hc : isLetterOrDigit c = true) :
    isLetterOrDigit c.toUpper = true ∧ (c.toUpper.isUpper = true ∨ c.toUpper.isDigit = true) ∧
      c.toUpper.toUpper = c.toUpper := by
  have ascii : ∀ n < 128, isLetterOrDigit (Char.ofNat n) = true →
      isLetterOrDigit (Char.ofNat n).toUpper = true ∧
        ((Char.ofNat n).toUpper.isUpper = true ∨ (Char.ofNat n).toUpper.isDigit = true) ∧
        (Char.ofNat n).toUpper.toUpper = (Char.ofNat n).toUpper := by
    decide
  have range := toNat_of_isLetterOrDigit hc
  have code := ascii c.toNat (by omega)
  rw [Char.ofNat_toNat] at code
  exact code hc

theorem isRun_of_mem_upperRuns {b : List Char} (h : b ∈ upperRuns cs) :
    IsRun b ∧ (∀ c ∈ b, c.isUpper = true ∨ c.isDigit = true) ∧ b.map Char.toUpper = b := by
  obtain ⟨run, mem, rfl⟩ := List.mem_map.1 h
  have isRun := isRun_of_mem_runs mem
  refine ⟨⟨by simpa using isRun.nonempty, ?_⟩, ?_, ?_⟩
  · exact List.forall_mem_map.2 fun c hc => (toUpper_of_isLetterOrDigit (isRun.solid c hc)).1
  · exact List.forall_mem_map.2 fun c hc => (toUpper_of_isLetterOrDigit (isRun.solid c hc)).2.1
  · rw [List.map_map]
    exact List.map_congr_left fun c hc => (toUpper_of_isLetterOrDigit (isRun.solid c hc)).2.2

section Joining

/-- The runs of a text joined by underscores, with another one at the end if the text goes on behind
the last of them. -/
inductive Joined (cs joined : List Char) : Prop where
  | whole (h : joined = ['_'].intercalate (runs cs))
  | trailing (some : runs cs ≠ []) (h : joined = ['_'].intercalate (runs cs) ++ ['_'])

/-- Behind a run that has begun, the letters and digits of the text continue it. -/
theorem joined_append {word : List Char} (solid : ∀ c ∈ word, isLetterOrDigit c = true) :
    Joined (word ++ cs) (word ++ joinRuns word.isEmpty cs) := by
  induction cs generalizing word with
  | nil =>
    refine .whole ?_
    rw [List.append_nil, runs_of_solid solid, joinRuns]
    cases word <;> simp
  | cons c rest ih =>
    rw [joinRuns]
    split
    · rename_i hc
      have longer : ∀ x ∈ word ++ [c], isLetterOrDigit x = true := by
        rw [List.forall_mem_append]
        exact ⟨solid, List.forall_mem_singleton.2 hc⟩
      have more := ih longer
      rw [List.isEmpty_eq_false_iff.2 (by simp), List.append_assoc, List.append_assoc] at more
      exact more
    · rename_i hc
      have apart : runs (word ++ c :: rest) = runs word ++ runs rest :=
        runs_append_cons (by simpa using hc) word rest
      have others : Joined rest (joinRuns true rest) := @ih [] (List.forall_mem_nil _)
      rw [runs_of_solid solid] at apart
      cases word with
      | nil =>
        cases others with
        | whole h => exact .whole (apart ▸ h)
        | trailing some h => exact .trailing (apart ▸ some) (apart ▸ h)
      | cons x word =>
        show Joined _ (x :: word ++ '_' :: joinRuns true rest)
        cases others with
        | whole h =>
          cases found : runs rest with
          | nil =>
            rw [found] at apart h
            refine .trailing (by rw [apart]; exact List.cons_ne_nil _ _) ?_
            rw [apart, h]
            simp
          | cons b bs =>
            rw [found] at apart h
            refine .whole ?_
            rw [apart, h]
            simp
        | trailing some h =>
          obtain ⟨b, bs, found⟩ := List.exists_cons_of_ne_nil some
          rw [found] at apart h
          refine .trailing (by rw [apart]; exact List.cons_ne_nil _ _) ?_
          rw [apart, h]
          simp

/-- A text that begins with other characters has an underscore in front. -/
theorem joinRuns_false (cs : List Char) :
    joinRuns false cs = joinRuns true cs ∨ joinRuns false cs = '_' :: joinRuns true cs := by
  cases cs with
  | nil => exact .inl rfl
  | cons c rest =>
    rw [joinRuns, joinRuns]
    split
    · exact .inl rfl
    · exact .inr rfl

/-- When the underscores at the ends have been cut off, the runs are left. -/
theorem trimChars_joinRuns (cs : List Char) :
    trimChars (· == '_') (joinRuns false cs) = ['_'].intercalate (runs cs) := by
  have underscore : ∀ c ∈ ['_'], (c == '_') = true := List.forall_mem_singleton.2 rfl
  obtain ⟨front, back⟩ := stops_intercalate fun b (hb : b ∈ runs cs) => isRun_of_mem_runs hb
  have trim (before after : List Char) (hb : ∀ c ∈ before, (c == '_') = true)
      (ha : ∀ c ∈ after, (c == '_') = true) := trimChars_middle hb ha front back
  have joined : Joined cs (joinRuns true cs) := @joined_append cs [] nofun
  rcases joinRuns_false cs with first | first <;> rw [first]
  · cases joined with
    | whole h => simpa [h] using trim [] [] nofun nofun
    | trailing some h => simpa [h] using trim [] ['_'] nofun underscore
  · cases joined with
    | whole h => simpa [h] using trim ['_'] [] underscore nofun
    | trailing some h => simpa [h] using trim ['_'] ['_'] underscore underscore

theorem map_intercalate (f : Char → Char) (hf : f '_' = '_') (blocks : List (List Char)) :
    (['_'].intercalate blocks).map f = ['_'].intercalate (blocks.map (List.map f)) := by
  induction blocks with
  | nil => rfl
  | cons b rest ih =>
    cases rest with
    | nil => simp
    | cons b' rest => simp_all

/-- The normal form has the runs of a name in upper case, and underscores between them. -/
theorem normalChars_eq (cs : List Char) : normalChars cs = ['_'].intercalate (upperRuns cs) := by
  rw [normalChars, trimChars_joinRuns, map_intercalate _ rfl]
  rfl

end Joining

/-- The runs in upper case are what the normal form has between its underscores. -/
theorem runs_normalChars (cs : List Char) : runs (normalChars cs) = upperRuns cs := by
  rw [normalChars_eq]
  exact runs_intercalate fun b hb => (isRun_of_mem_upperRuns hb).1

theorem upperRuns_normalChars (cs : List Char) : upperRuns (normalChars cs) = upperRuns cs := by
  rw [upperRuns, runs_normalChars]
  exact (List.map_congr_left fun b hb => (isRun_of_mem_upperRuns hb).2.2).trans (List.map_id _)

theorem normalChars_inj {cs cs' : List Char} :
    normalChars cs = normalChars cs' ↔ upperRuns cs = upperRuns cs' := by
  constructor
  · intro same
    rw [← runs_normalChars, same, runs_normalChars]
  · intro same
    rw [normalChars_eq, normalChars_eq, same]

theorem normalize_eq_ok_iff :
    normalize s = .ok form ↔ normalChars s.toList ≠ [] ∧ form = normalText s := by
  unfold normalize normalText
  split
  · rename_i none
    rw [none]
    exact iff_of_false nofun fun h => h.1 rfl
  · rename_i some
    rw [Except.ok.injEq, and_iff_right some]
    exact eq_comm

theorem toList_normalText (s : String) : (normalText s).toList = normalChars s.toList :=
  String.toList_ofList

theorem normal_of_normalize (h : normalize s = .ok form) : Normal form := by
  obtain ⟨some, rfl⟩ := normalize_eq_ok_iff.1 h
  rw [normalChars_eq] at some
  refine .blocks (fun none => some ?_) (fun b hb => (isRun_of_mem_upperRuns hb).1.nonempty)
    (fun b hb => (isRun_of_mem_upperRuns hb).2.1) ((toList_normalText s).trans (normalChars_eq _))
  rw [none]
  rfl

/-- A normal form is its own normal form. -/
theorem normalize_of_normalize (h : normalize s = .ok form) : normalize form = .ok form := by
  obtain ⟨some, rfl⟩ := normalize_eq_ok_iff.1 h
  have same : normalChars (normalText s).toList = normalChars s.toList := by
    rw [toList_normalText, normalChars_inj, upperRuns_normalChars]
  rw [normalize_eq_ok_iff, same]
  exact ⟨some, congrArg String.ofList same.symm⟩

/-- The characters of the normal form, of which there are none if there is no normal form. -/
theorem toList_normalize (s : String) :
    ((normalize s).toOption.map String.toList).getD [] = normalChars s.toList := by
  unfold normalize
  split
  · rename_i none
    rw [none]
    rfl
  · exact String.toList_ofList

/-- Names have one normal form, or both have none, exactly if their runs are the same in upper
case. -/
theorem normalize_toOption_eq_iff :
    (normalize s).toOption = (normalize t).toOption ↔ upperRuns s.toList = upperRuns t.toList := by
  rw [← normalChars_inj]
  constructor
  · intro same
    rw [← toList_normalize, same, toList_normalize]
  · intro same
    unfold normalize
    rw [same]
    split <;> rfl

/-- Events have one label exactly if they are of one kind and their names have one normal form. -/
theorem EventName.label_eq_iff {n m : EventName} :
    (∃ l, n.label = .ok l ∧ m.label = .ok l) ↔
      n.kind = m.kind ∧ ∃ form, normalize n.source = .ok form ∧ normalize m.source = .ok form := by
  constructor
  · rintro ⟨l, hn, hm⟩
    have kinds : n.kind = m.kind :=
      EventKind.eq_of_head ((head_label hn).symm.trans (head_label hm))
    obtain ⟨form, hform, rfl⟩ := map_eq_ok.1 hn
    obtain ⟨form', hform', same⟩ := map_eq_ok.1 hm
    rw [kinds, String.append_right_inj] at same
    exact ⟨kinds, form, hform, same ▸ hform'⟩
  · rintro ⟨kinds, form, hn, hm⟩
    exact ⟨_, map_eq_ok.2 ⟨form, hn, rfl⟩, map_eq_ok.2 ⟨form, hm, by rw [kinds]⟩⟩

theorem normalize_eq_error_iff {e : LabelError} :
    normalize s = .error e ↔ (∀ c ∈ s.toList, isLetterOrDigit c = false) ∧ e = ⟨s⟩ := by
  have none : hasLetterOrDigit s = false ↔ ∀ c ∈ s.toList, isLetterOrDigit c = false := by
    simp [hasLetterOrDigit]
  rw [← none]
  cases h : hasLetterOrDigit s with
  | false =>
    rw [normalize_eq_error h, Except.error.injEq, and_iff_right rfl]
    exact eq_comm
  | true =>
    rw [normalize_eq_ok h]
    refine iff_of_false (fun same => ?_) fun both => Bool.noConfusion both.1
    cases same

/-- A name has no normal form exactly if there is neither a letter nor a digit in it. A normal form
is made of blocks of capitals and digits with underscores between them, and is its own normal form.
Names have one normal form, or both have none, exactly if their runs of letters and digits are the
same in upper case. Events therefore have one label exactly if they are of one kind and come from
names with one normal form. -/
theorem normalize_canonical :
    (∀ s e, normalize s = .error e ↔
      (∀ c ∈ s.toList, isLetterOrDigit c = false) ∧ e = ⟨s⟩) ∧
    (∀ s form, normalize s = .ok form → Normal form ∧ normalize form = .ok form) ∧
    (∀ s t, (normalize s).toOption = (normalize t).toOption ↔
      upperRuns s.toList = upperRuns t.toList) ∧
    ∀ n m : EventName, (∃ l, n.label = .ok l ∧ m.label = .ok l) ↔
      n.kind = m.kind ∧ ∃ form, normalize n.source = .ok form ∧ normalize m.source = .ok form :=
  ⟨fun _ _ => normalize_eq_error_iff,
    fun _ _ h => ⟨normal_of_normalize h, normalize_of_normalize h⟩,
    fun _ _ => normalize_toOption_eq_iff, fun _ _ => EventName.label_eq_iff⟩

/-- A letter that is not ASCII parts the runs at its sides, whatever it is in upper case. -/
theorem normalize_canonical_castle :
    normalize "roßhade! 2" = .ok "RO_HADE_2" ∧ normalize "_Ro-HADE_2" = .ok "RO_HADE_2" ∧
      normalize "RO_HADE_2" = .ok "RO_HADE_2" ∧ normalize "ß" = .error ⟨"ß"⟩ ∧
      ∃ l, EventName.label ⟨.action, "roßhade! 2"⟩ = .ok l ∧
        EventName.label ⟨.action, "_Ro-HADE_2"⟩ = .ok l := by
  obtain ⟨refused, canonical, same, labels⟩ := normalize_canonical
  have castle : normalize "roßhade! 2" = .ok "RO_HADE_2" :=
    toOption_eq_some.1 (by decide +kernel)
  have plain : normalize "_Ro-HADE_2" = .ok "RO_HADE_2" := by
    rw [← toOption_eq_some, ← (same "roßhade! 2" "_Ro-HADE_2").2 (by decide +kernel), castle]
    rfl
  have none : ∀ c ∈ "ß".toList, isLetterOrDigit c = false :=
    List.forall_mem_singleton.2 (by decide)
  exact ⟨castle, plain, (canonical _ _ castle).2, (refused _ _).2 ⟨none, rfl⟩,
    (labels _ _).2 ⟨rfl, _, castle, plain⟩⟩

end TokenGate
