import TokenGate.Condition
import TokenGate.Proofs.Condition.Lexemes

/-!
# The layout of conditions

A text that splits into lexemes is made of their characters, in order, and of blanks between them.
The blanks do not matter: more of them may be put in between any two lexemes, for what comes before
and what comes behind splits on its own. A text that does not split has an offset at which it goes
on without a lexeme.
-/

namespace TokenGate.Condition

open Text

/-- A text is made of lexemes, with blanks before, between and behind them or none. -/
inductive LaidOut : List Char → List Lexeme → Prop
  | blank {cs : List Char} (h : ∀ c ∈ cs, isBlank c = true) : LaidOut cs []
  | lexeme {gap cs : List Char} {l : Lexeme} {ls : List Lexeme} (hgap : ∀ c ∈ gap, isBlank c = true)
      (h : LaidOut cs ls) : LaidOut (gap ++ (l.text ++ cs)) (l :: ls)

/-- The characters of a text without the blanks outside of its quotations. The mark, if there is
one, is that of the quotation in which the text begins. -/
def squeeze : Option Char → List Char → List Char
  | _, [] => []
  | none, c :: cs =>
      if isBlank c then squeeze none cs
      else c :: squeeze (if c = singleQuote ∨ c = doubleQuote then some c else none) cs
  | some mark, c :: cs => c :: squeeze (if c = mark then none else some mark) cs

/-- Lexemes are cut off the front of a text, and the rest is left. -/
inductive CutOff : List Char → List Lexeme → List Char → Prop
  | done {cs : List Char} : CutOff cs [] cs
  | next {cs middle rest : List Char} {l : Lexeme} {ls : List Lexeme}
      (first : Lexeme.read? (cs.dropWhile isBlank) = some (l, middle))
      (others : CutOff middle ls rest) : CutOff cs (l :: ls) rest

/-- At an offset, where the lexemes before it have been cut off, a text goes on with more than
blanks, and with no lexeme. -/
def Stray (cs : List Char) (offset : Nat) : Prop :=
  ∃ ls rest, CutOff cs ls rest ∧ cs.length = offset + rest.length ∧
    (∃ c ∈ rest, isBlank c = false) ∧
    ∀ l : Lexeme, l.Formed → ¬ l.text <+: rest.dropWhile isBlank

section Squeeze

variable {cs more : List Char}

theorem squeeze_blank (blank : ∀ c ∈ cs, isBlank c = true) (more : List Char) :
    squeeze none (cs ++ more) = squeeze none more := by
  induction cs with
  | nil => rfl
  | cons c cs ih =>
    obtain ⟨hc, blank⟩ := List.forall_mem_cons.1 blank
    rw [List.cons_append, squeeze, if_pos hc, ih blank]

theorem squeeze_plain (plain : ∀ c ∈ cs, Plain c) (more : List Char) :
    squeeze none (cs ++ more) = cs ++ squeeze none more := by
  induction cs with
  | nil => rfl
  | cons c cs ih =>
    obtain ⟨hc, plain⟩ := List.forall_mem_cons.1 plain
    have unquoted : ¬ (c = singleQuote ∨ c = doubleQuote) := not_or.2 ⟨hc.single, hc.double⟩
    rw [List.cons_append, squeeze, if_neg (by simp [hc.solid]), if_neg unquoted, ih plain,
      List.cons_append]

/-- Inside of a quotation everything is kept. -/
theorem squeeze_body {mark : Char} (inside : mark ∉ cs) (more : List Char) :
    squeeze (some mark) (cs ++ mark :: more) = cs ++ mark :: squeeze none more := by
  induction cs with
  | nil => rw [List.nil_append, squeeze, if_pos rfl, List.nil_append]
  | cons c cs ih =>
    obtain ⟨other, inside⟩ := not_or.1 (mt List.mem_cons.2 inside)
    rw [List.cons_append, squeeze, if_neg (Ne.symm other), ih inside, List.cons_append]

/-- The characters of a lexeme are kept. -/
theorem squeeze_of_read? {l : Lexeme} {rest : List Char} (h : Lexeme.read? cs = some (l, rest)) :
    squeeze none cs = l.text ++ squeeze none rest := by
  rw [← Lexeme.text_append_of_read? h]
  have formed := Lexeme.formed_of_read? h
  rcases Lexeme.plain_or_quotation formed with plain | ⟨mark, body, quote, inside, rfl⟩
  · exact squeeze_plain plain rest
  · have solid := isBlank_of_quote quote
    have characters :
        (Lexeme.quotation mark body).text ++ rest = mark :: (body ++ mark :: rest) := by
      simp [Lexeme.text]
    rw [characters, squeeze, if_neg (by simp [solid]), if_pos quote, squeeze_body inside]
    simp [Lexeme.text]

end Squeeze

namespace Lexes

variable {cs more gap : List Char} {ls ms : List Lexeme}

theorem of_blank_append (blank : ∀ c ∈ gap, isBlank c = true) (h : Lexes (gap ++ cs) ls) :
    Lexes cs ls := by
  cases h with
  | done rest => exact .done (List.forall_mem_append.1 rest).2
  | next first others =>
    rw [List.dropWhile_append_of_pos blank] at first
    exact .next first others

theorem formed (h : Lexes cs ls) : ∀ l ∈ ls, l.Formed := by
  induction h with
  | done blank => exact List.forall_mem_nil _
  | next first others ih => exact List.forall_mem_cons.2 ⟨Lexeme.formed_of_read? first, ih⟩

/-- Lexemes with nothing but blanks between them can be told from the text. -/
theorem laidOut (h : Lexes cs ls) : LaidOut cs ls := by
  induction h with
  | done blank => exact .blank blank
  | @next cs rest l ls first others ih =>
    rw [← List.takeWhile_append_dropWhile (p := isBlank) (l := cs),
      ← Lexeme.text_append_of_read? first]
    exact .lexeme (fun c hc => List.mem_takeWhile_imp hc) ih

/-- The lexemes are all of the text but the blanks. -/
theorem flatMap_text (h : Lexes cs ls) : ls.flatMap Lexeme.text = squeeze none cs := by
  induction h with
  | @done cs blank =>
    have none := squeeze_blank blank []
    rw [List.append_nil] at none
    rw [none]
    rfl
  | @next cs rest l ls first others ih =>
    have blank : ∀ c ∈ cs.takeWhile isBlank, isBlank c = true :=
      fun c hc => List.mem_takeWhile_imp hc
    rw [List.flatMap_cons, ih, ← List.takeWhile_append_dropWhile (p := isBlank) (l := cs),
      squeeze_blank blank, squeeze_of_read? first]

/-- Where a text is cut between two lexemes, both parts split into their own. -/
theorem split (front : LaidOut cs ls) (h : Lexes (cs ++ more) (ls ++ ms)) :
    Lexes cs ls ∧ Lexes more ms := by
  induction front with
  | blank blank => exact ⟨.done blank, h.of_blank_append blank⟩
  | @lexeme gap cs l ls blank front ih =>
    have inner : Lexes (l.text ++ (cs ++ more)) (l :: (ls ++ ms)) := by
      rw [List.append_assoc, List.append_assoc] at h
      exact h.of_blank_append blank
    -- the first lexeme cannot go on into what comes behind its characters in the layout
    cases inner with
    | @next _ rest _ _ first others =>
      rw [Lexeme.dropWhile_text_append first] at first
      obtain rfl := List.append_cancel_left (Lexeme.text_append_of_read? first)
      obtain ⟨rest, behind⟩ := ih others
      rw [← List.append_assoc] at first
      have cut := Lexeme.read?_of_append first
      rw [← Lexeme.dropWhile_text_append first] at cut
      exact ⟨(Lexes.next cut rest).skip blank, behind⟩

/-- The lexemes of a text stay what they are if blanks are put in between two of them. -/
theorem insert (front : LaidOut cs ls) (h : Lexes (cs ++ more) (ls ++ ms))
    (blank : ∀ c ∈ gap, isBlank c = true) : Lexes (cs ++ (gap ++ more)) (ls ++ ms) := by
  obtain ⟨first, second⟩ := split front h
  cases gap with
  | nil => exact h
  | cons c gap =>
    refine first.append ?_ (second.skip blank)
    rintro d ⟨⟩
    exact .inl (blank _ List.mem_cons_self)

theorem of_append_blank (blank : ∀ c ∈ more, isBlank c = true) (h : Lexes (cs ++ more) ls) :
    Lexes cs ls := by
  generalize whole : cs ++ more = all at h
  induction h generalizing cs with
  | done rest =>
    rw [← whole] at rest
    exact .done (List.forall_mem_append.1 rest).1
  | @next all rest l ls first others ih =>
    rw [← whole, List.dropWhile_append] at first
    split at first
    · rw [List.dropWhile_eq_nil_iff.2 blank] at first
      cases first
    · obtain ⟨rest', rfl, cut⟩ := Lexeme.read?_of_append_blank blank first
      exact .next cut (ih rfl)

/-- The characters of the lexemes with spaces between them split into the same lexemes. -/
theorem spaced (h : Lexes cs ls) :
    Lexes (" ".intercalate (ls.map fun l => String.ofList l.text)).toList ls := by
  induction h with
  | done blank => exact .done nofun
  | @next cs rest l ls first others ih =>
    have alone : Lexes l.text [l] := by
      have whole := Lexeme.text_append_of_read? first
      have read : Lexeme.read? (l.text ++ rest) = some (l, [] ++ rest) := by rw [whole]; exact first
      have cut := Lexeme.read?_of_append read
      have solid := Lexeme.dropWhile_text_append first []
      rw [List.append_nil] at solid
      rw [← solid] at cut
      exact .next cut (nil_iff.2 rfl)
    cases ls with
    | nil => simpa using alone
    | cons l' ls =>
      have space : Breaks (' ' :: (" ".intercalate
          ((l' :: ls).map fun l => String.ofList l.text)).toList) := by
        rintro c ⟨⟩
        exact .inl (by decide)
      have blank : ∀ c ∈ [' '], isBlank c = true := by
        intro c hc
        rw [List.mem_singleton.1 hc]
        decide
      have spaced := alone.append space (ih.skip blank)
      simpa [String.intercalate_cons_cons] using spaced

end Lexes

namespace CutOff

variable {cs more rest : List Char} {ls : List Lexeme}

/-- Blanks that come behind everything are left with the rest. -/
theorem append_blank (h : CutOff cs ls rest) (blank : ∀ c ∈ more, isBlank c = true) :
    CutOff (cs ++ more) ls (rest ++ more) := by
  induction h with
  | done => exact .done
  | @next cs middle rest l ls first others ih =>
    refine .next ?_ ih
    rw [List.dropWhile_append, if_neg]
    · exact Lexeme.read?_append first (.of_blank blank)
    · intro none
      rw [List.isEmpty_iff.1 none] at first
      cases first

end CutOff

/-- Blanks behind the place where no lexeme can be read are of no help there. -/
theorem Stray.append_blank {cs more : List Char} {offset : Nat} (h : Stray cs offset)
    (blank : ∀ c ∈ more, isBlank c = true) : Stray (cs ++ more) offset := by
  obtain ⟨ls, rest, cut, length, ⟨c, hc, solid⟩, unread⟩ := h
  refine ⟨ls, rest ++ more, cut.append_blank blank, ?_,
    ⟨c, List.mem_append_left more hc, solid⟩, ?_⟩
  · rw [List.length_append, List.length_append]
    omega
  · have visible : rest.dropWhile isBlank ≠ [] := by
      intro none
      rw [List.dropWhile_eq_nil_iff.1 none c hc] at solid
      cases solid
    rw [← Lexeme.read?_eq_none_iff] at unread
    rw [List.dropWhile_append, if_neg (by simpa using visible), ← Lexeme.read?_eq_none_iff,
      Option.eq_none_iff_forall_ne_some]
    intro ⟨l, left⟩ read
    obtain ⟨left', -, early⟩ := Lexeme.read?_of_append_blank blank read
    rw [unread] at early
    cases early

section Whole

variable {s : String} {cs : List Char} {ls : List Lexeme} {fuel offset o : Nat}

theorem append_dropEndWhile (cs : List Char) :
    ∃ gap, (∀ c ∈ gap, isBlank c = true) ∧ cs = dropEndWhile isBlank cs ++ gap :=
  ⟨cs.rtakeWhile isBlank, fun _ hc => List.mem_rtakeWhile_imp hc,
    List.rdropWhile_append_rtakeWhile.symm⟩

/-- The lexemes of a text are those that it splits into. -/
theorem lex_eq_ok_iff : lex s = .ok ls ↔ Lexes s.toList ls := by
  obtain ⟨gap, blank, whole⟩ := append_dropEndWhile s.toList
  have front : lex s = .ok ls ↔ Lexes (dropEndWhile isBlank s.toList) ls :=
    lexFrom_eq_ok_iff le_rfl (List.rdropWhile_idempotent isBlank s.toList)
  rw [front]
  constructor
  · intro h
    have all := h.append (.of_blank blank) (.done blank)
    rwa [List.append_nil, ← whole] at all
  · intro h
    rw [whole] at h
    exact h.of_append_blank blank

/-- Cutting lexemes off ends in an error only where no lexeme can be read; in particular it never
comes to the end of its fuel. -/
theorem stray_of_lexFrom (enough : cs.length ≤ fuel) (solid : dropEndWhile isBlank cs = cs)
    (h : lexFrom fuel offset cs = .error o) : ∃ n, o = offset + n ∧ Stray cs n := by
  induction fuel generalizing offset cs with
  | zero =>
    obtain rfl := List.length_eq_zero_iff.1 (Nat.le_zero.1 enough)
    cases h
  | succ fuel ih =>
    cases cs with
    | nil => cases h
    | cons c cs =>
      simp only [lexFrom] at h
      split at h
      · rename_i unread
        cases h
        have visible : ∃ d ∈ c :: cs, isBlank d = false := by
          by_contra none
          have blank : ∀ d ∈ c :: cs, isBlank d = true := by simpa using none
          rw [dropEndWhile, ← List.rdropWhile, List.rdropWhile_eq_nil_iff.2 blank] at solid
          cases solid
        exact ⟨0, rfl, [], c :: cs, .done, (Nat.zero_add _).symm, visible,
          Lexeme.read?_eq_none_iff.1 unread⟩
      · rename_i l rest first
        obtain ⟨suffix, shorter⟩ := Lexeme.suffix_of_read? first
        obtain ⟨n, rfl, ls, left, cut, length, visible, unread⟩ :=
          ih (by omega) (solid_of_suffix suffix solid) (Result.map_eq_error.1 h)
        refine ⟨((c :: cs).takeWhile isBlank).length + l.text.length + n, by omega, l :: ls, left,
          .next first cut, ?_, visible, unread⟩
        have blanks := congrArg List.length
          (List.takeWhile_append_dropWhile (p := isBlank) (l := c :: cs))
        have whole := congrArg List.length (Lexeme.text_append_of_read? first)
        rw [List.length_append] at blanks whole
        omega

theorem stray_of_lex (h : lex s = .error o) : Stray s.toList o := by
  obtain ⟨gap, blank, whole⟩ := append_dropEndWhile s.toList
  obtain ⟨n, rfl, stray⟩ :=
    stray_of_lexFrom le_rfl (List.rdropWhile_idempotent isBlank s.toList) h
  rw [whole, Nat.zero_add]
  exact stray.append_blank blank

/-- A text either has lexemes, which are all of it but the blanks outside of quotations, and which
blanks between any two of them, or in front of all or behind all of them, do not change, nor single
spaces in the place of the blanks that there are; or it is no condition, as there is no lexeme at an
offset of it. -/
theorem lex_layout (s : String) :
    (∃ ls, lex s = .ok ls ∧ (∀ l ∈ ls, l.Formed) ∧ LaidOut s.toList ls ∧
        ls.flatMap Lexeme.text = squeeze none s.toList ∧
        (∀ (front gap back : String) (ms ns : List Lexeme), s = front ++ back → ls = ms ++ ns →
          LaidOut front.toList ms → (∀ c ∈ gap.toList, isBlank c = true) →
            lex (front ++ gap ++ back) = .ok ls) ∧
        lex (" ".intercalate (ls.map fun l => String.ofList l.text)) = .ok ls) ∨
      ∃ offset, lex s = .error offset ∧
        compile s = .error ⟨s, .strayCharacter offset⟩ ∧ Stray s.toList offset := by
  cases h : lex s with
  | ok ls =>
    left
    have lexes := lex_eq_ok_iff.1 h
    refine ⟨ls, rfl, lexes.formed, lexes.laidOut, lexes.flatMap_text, ?_,
      lex_eq_ok_iff.2 lexes.spaced⟩
    rintro front gap back ms ns rfl rfl first blank
    rw [String.toList_append] at lexes
    rw [lex_eq_ok_iff, String.toList_append, String.toList_append, List.append_assoc]
    exact lexes.insert first blank
  | error offset =>
    right
    have invalid : compile s = .error ⟨s, .strayCharacter offset⟩ := by
      rw [compile, parse, h]
    exact ⟨offset, rfl, invalid, stray_of_lex h⟩

end Whole

end TokenGate.Condition
