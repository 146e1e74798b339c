import TokenGate.Condition.Lexeme
import TokenGate.Proofs.Result
import TokenGate.Proofs.Text.Words

/-!
# How conditions split into lexemes

A lexeme is read as far as it goes, so what comes behind it may belong to it. A blank or a closing
parenthesis never does: whatever is read in front of one of them is read in the same way when the
text goes on there. So the lexemes of a text stay what they are when it becomes a part of another.
-/

namespace TokenGate.Condition

open Text

/-- The ranges of the character codes of blanks. -/
def blankRanges : List (Nat × Nat) :=
  [(0x09, 0x0D), (0x1C, 0x20), (0x85, 0x85), (0xA0, 0xA0), (0x1680, 0x1680), (0x2000, 0x200A),
    (0x2028, 0x2029), (0x202F, 0x202F), (0x205F, 0x205F), (0x3000, 0x3000)]

theorem range_of_isBlank {c : Char} (h : isBlank c = true) :
    ∃ r ∈ blankRanges, r.1 ≤ c.toNat ∧ c.toNat ≤ r.2 := by
  simp only [isBlank, Bool.or_eq_true, Bool.and_eq_true, decide_eq_true_eq, beq_iff_eq] at h
  simp only [blankRanges, List.exists_mem_cons_iff, List.not_mem_nil]
  omega

/-- The digits of every script lie apart from the blanks. -/
theorem isDecimal_of_isBlank {c : Char} (h : isBlank c = true) : isDecimal c = false := by
  have apart : ∀ z ∈ digitZeros, ∀ r ∈ blankRanges, r.2 < z ∨ z + 9 < r.1 := by decide
  obtain ⟨r, hr, low, high⟩ := range_of_isBlank h
  rw [isDecimal, digitValue?, Option.isSome_map, Option.isSome_eq_false_iff,
    Option.isNone_iff_eq_none, List.find?_eq_none]
  intro z hz
  have := apart z hz r hr
  simp only [Bool.and_eq_true, decide_eq_true_eq]
  omega

/-- What goes on behind a text begins with a blank or a closing parenthesis. -/
def Breaks (more : List Char) : Prop := ∀ c ∈ more.head?, isBlank c = true ∨ c = ')'

namespace Breaks

variable {p : Char → Bool} {more : List Char}

theorem closing (more : List Char) : Breaks (')' :: more) := by
  rintro c ⟨⟩
  exact .inr rfl

theorem of_blank (blank : ∀ c ∈ more, isBlank c = true) : Breaks more :=
  fun c hc => .inl (blank c (List.mem_of_mem_head? hc))

theorem stops (h : Breaks more) (blank : ∀ c, isBlank c = true → p c = false)
    (closing : p ')' = false) : Stops p more := by
  intro c hc
  rcases h c hc with hc | rfl
  · exact blank c hc
  · exact closing

theorem stops_isDecimal (h : Breaks more) : Stops isDecimal more :=
  h.stops (fun _ => isDecimal_of_isBlank) (by decide)

theorem stops_isNamePart (h : Breaks more) : Stops isNamePart more := by
  refine h.stops (fun c hc => ?_) (by decide)
  rw [← Bool.not_eq_true]
  intro part
  rw [isBlank_of_isNamePart part] at hc
  cases hc

theorem stops_isNameStart (h : Breaks more) : Stops isNameStart more := by
  intro c hc
  have part := h.stops_isNamePart c hc
  simp only [isNamePart, isLetterOrDigit, Bool.or_eq_false_iff] at part
  simp [isNameStart, part]

theorem head_ne {c d : Char} (h : Breaks (d :: more)) (blank : isBlank c = false)
    (closing : c ≠ ')') : d ≠ c := by
  rintro rfl
  rcases h d rfl with hd | hd
  · rw [blank] at hd
    cases hd
  · exact closing hd

/-- Where a text goes on, no character comes next but a blank or a closing parenthesis, unless
there is some more of the text. -/
theorem append_ne_cons (h : Breaks more) {c : Char} (blank : isBlank c = false) (closing : c ≠ ')')
    {cs : List Char} (hcs : ∀ rest, cs = c :: rest → False) (rest : List Char) :
    cs ++ more = c :: rest → False := by
  intro heq
  cases cs with
  | nil =>
    subst heq
    exact h.head_ne blank closing rfl
  | cons d cs =>
    cases heq
    exact hcs cs rfl

end Breaks

namespace Symbol

variable {s : Symbol} {cs rest more : List Char}

theorem text_append_of_read? (h : read? cs = some (s, rest)) : s.text ++ rest = cs := by
  revert h
  fun_cases read? cs <;> rintro ⟨⟩ <;> rfl

theorem text_ne_nil (s : Symbol) : s.text ≠ [] := by
  fun_cases text s <;> exact List.cons_ne_nil _ _

theorem read?_append (h : read? cs = some (s, rest)) (hm : Breaks more) :
    read? (cs ++ more) = some (s, rest ++ more) := by
  revert h
  fun_cases read? cs
  -- only the symbols that a longer one begins with depend on what comes next
  case case7 | case8 | case9 =>
    rename_i alone
    rintro ⟨⟩
    rw [List.cons_append, read?]
    exact hm.append_ne_cons (by decide) (by decide) alone
  all_goals rintro ⟨⟩ <;> rfl

end Symbol

namespace Lexeme

variable {l : Lexeme} {cs rest more : List Char}

theorem readFraction_other (h : ∀ rest, cs = '.' :: rest → False) : readFraction cs = ([], cs) := by
  rw [readFraction]
  exact h

theorem readFraction_append (hm : Breaks more) (cs : List Char) :
    readFraction (cs ++ more) = ((readFraction cs).1, (readFraction cs).2 ++ more) := by
  by_cases hp : ∃ rest, cs = '.' :: rest
  · obtain ⟨rest, rfl⟩ := hp
    simp only [List.cons_append, readFraction, takeWhile_append_of_stops hm.stops_isDecimal,
      dropWhile_append_of_stops hm.stops_isDecimal]
    split <;> rfl
  · have other : ∀ rest, cs = '.' :: rest → False := fun rest hr => hp ⟨rest, hr⟩
    rw [readFraction_other other, readFraction_other]
    exact hm.append_ne_cons (by decide) (by decide) other

theorem nameTail_other {c : Char} (h : c ≠ '.') (cs : List Char) :
    nameTail (c :: cs) =
      if isNamePart c then (c :: (nameTail cs).1, (nameTail cs).2) else ([], c :: cs) := by
  rw [nameTail]
  exact fun _ _ hc => absurd hc h

theorem nameTail_point (h : Stops isNameStart cs) : nameTail ('.' :: cs) = ([], '.' :: cs) := by
  cases cs with
  | nil => rfl
  | cons c cs => rw [nameTail, if_neg (by simp [h c rfl])]

theorem nameTail_append (hm : Breaks more) (cs : List Char) :
    nameTail (cs ++ more) = ((nameTail cs).1, (nameTail cs).2 ++ more) := by
  fun_induction nameTail cs with
  | case1 =>
    cases more with
    | nil => rfl
    | cons c more =>
      have hc : c ≠ '.' := hm.head_ne (by decide) (by decide)
      rw [List.nil_append, nameTail_other hc, if_neg (by simp [hm.stops_isNamePart c rfl])]
  | case2 c rest h t after eq ih =>
    rw [List.cons_append, List.cons_append, nameTail, if_pos h, ih, eq]
  | case3 c rest h =>
    rw [List.cons_append, List.cons_append, nameTail, if_neg h]
  | case4 c rest hp h t after eq ih =>
    have hc : c ≠ '.' := by
      rintro rfl
      exact absurd h (by decide)
    rw [List.cons_append, nameTail_other hc, if_pos h, ih, eq]
  | case5 c rest hp h =>
    by_cases hc : c = '.'
    · subst hc
      cases rest with
      | nil => exact nameTail_point hm.stops_isNameStart
      | cons d rest => exact (hp d rest rfl rfl).elim
    · rw [List.cons_append, nameTail_other hc, if_neg h]

/-- A quotation goes up to the first mark. -/
theorem readQuotation_eq_some_iff {mark : Char} :
    readQuotation mark cs = some (l, rest) ↔
      ∃ body, mark ∉ body ∧ l = quotation mark body ∧ cs = body ++ mark :: rest := by
  constructor
  · intro h
    rw [readQuotation] at h
    split at h
    · cases h
    · rename_i c after hd
      cases h
      have hc : c = mark := by
        have := List.head?_dropWhile_not (· != mark) cs
        simpa [hd] using this
      refine ⟨_, fun hm => ?_, rfl, ?_⟩
      · simpa using List.mem_takeWhile_imp hm
      · rw [← hc, ← hd, hc, List.takeWhile_append_dropWhile]
  · rintro ⟨body, hb, rfl, rfl⟩
    have inside : ∀ c ∈ body, (c != mark) = true := by
      intro c hc
      rw [bne_iff_ne]
      rintro rfl
      exact hb hc
    simp only [readQuotation, List.dropWhile_append_of_pos inside,
      List.takeWhile_append_of_pos inside]
    simp

theorem readQuotation_append {mark : Char} (h : readQuotation mark cs = some (l, rest)) :
    readQuotation mark (cs ++ more) = some (l, rest ++ more) := by
  obtain ⟨body, hb, hl, rfl⟩ := readQuotation_eq_some_iff.1 h
  exact readQuotation_eq_some_iff.2 ⟨body, hb, hl, by simp⟩

/-- What has been read in front of a blank or a closing parenthesis is read however the text goes
on there. -/
theorem read?_append (h : read? cs = some (l, rest)) (hm : Breaks more) :
    read? (cs ++ more) = some (l, rest ++ more) := by
  revert h
  fun_cases read? cs with
  | case1 => exact nofun
  | case2 c cs hc fraction after hf =>
    rintro ⟨⟩
    rw [List.cons_append, read?, if_pos hc, takeWhile_append_of_stops hm.stops_isDecimal,
      dropWhile_append_of_stops hm.stops_isDecimal, readFraction_append hm, hf]
  | case3 c cs hc hq =>
    intro h
    rw [List.cons_append, read?, if_neg hc, if_pos hq, readQuotation_append h]
  | case4 c cs hc hq hn t after ht =>
    rintro ⟨⟩
    rw [List.cons_append, read?, if_neg hc, if_neg hq, if_pos hn, nameTail_append hm, ht]
  | case5 c cs hc hq hn =>
    intro h
    obtain ⟨⟨s, after⟩, hs, ⟨⟩⟩ := Option.map_eq_some_iff.1 h
    rw [List.cons_append, read?, if_neg hc, if_neg hq, if_neg hn, ← List.cons_append,
      Symbol.read?_append hs hm]
    rfl

theorem text_readFraction (cs : List Char) :
    (if (readFraction cs).1.isEmpty then [] else '.' :: (readFraction cs).1) ++
      (readFraction cs).2 = cs := by
  by_cases hp : ∃ rest, cs = '.' :: rest
  · obtain ⟨rest, rfl⟩ := hp
    by_cases none : (rest.takeWhile isDecimal).isEmpty
    · rw [readFraction, if_pos none]
      rfl
    · rw [readFraction, if_neg none, if_neg none, List.cons_append,
        List.takeWhile_append_dropWhile]
  · rw [readFraction_other fun rest hr => hp ⟨rest, hr⟩]
    rfl

theorem nameTail_fst_append_snd (cs : List Char) : (nameTail cs).1 ++ (nameTail cs).2 = cs := by
  fun_induction nameTail cs with
  | case1 => rfl
  | case2 c rest h t after eq ih =>
    rw [eq] at ih
    rw [List.cons_append, List.cons_append, ih]
  | case3 c rest h => rfl
  | case4 c rest hp h t after eq ih =>
    rw [eq] at ih
    rw [List.cons_append, ih]
  | case5 c rest hp h => rfl

/-- The characters of a lexeme are those that were read, and the rest comes behind them. -/
theorem text_append_of_read? (h : read? cs = some (l, rest)) : l.text ++ rest = cs := by
  revert h
  fun_cases read? cs with
  | case1 => exact nofun
  | case2 c cs hc fraction after hf =>
    rintro ⟨⟩
    have tail := text_readFraction (cs.dropWhile isDecimal)
    rw [hf] at tail
    rw [text, List.append_assoc, tail, List.cons_append, List.takeWhile_append_dropWhile]
  | case3 c cs hc hq =>
    intro h
    obtain ⟨body, -, rfl, rfl⟩ := readQuotation_eq_some_iff.1 h
    simp [text]
  | case4 c cs hc hq hn t after ht =>
    rintro ⟨⟩
    have tail := nameTail_fst_append_snd cs
    rw [ht] at tail
    rw [text, List.cons_append, tail]
  | case5 c cs hc hq hn =>
    intro h
    obtain ⟨⟨s, after⟩, hs, ⟨⟩⟩ := Option.map_eq_some_iff.1 h
    exact Symbol.text_append_of_read? hs

theorem text_ne_nil_of_read? (h : read? cs = some (l, rest)) : l.text ≠ [] := by
  revert h
  fun_cases read? cs with
  | case1 => exact nofun
  | case2 c cs hc fraction after hf =>
    rintro ⟨⟩
    exact List.cons_ne_nil _ _
  | case3 c cs hc hq =>
    intro h
    obtain ⟨body, -, rfl, -⟩ := readQuotation_eq_some_iff.1 h
    exact List.cons_ne_nil _ _
  | case4 c cs hc hq hn t after ht =>
    rintro ⟨⟩
    exact List.cons_ne_nil _ _
  | case5 c cs hc hq hn =>
    intro h
    obtain ⟨⟨s, after⟩, hs, ⟨⟩⟩ := Option.map_eq_some_iff.1 h
    exact s.text_ne_nil

/-- What is left when blanks and a lexeme are read is a shorter end of the text. -/
theorem suffix_of_read? (first : read? (cs.dropWhile isBlank) = some (l, rest)) :
    rest <:+ cs ∧ rest.length < cs.length := by
  have whole := text_append_of_read? first
  have pos := List.length_pos_iff.2 (text_ne_nil_of_read? first)
  have short := List.length_dropWhile_le isBlank cs
  rw [← whole, List.length_append] at short
  exact ⟨.trans ⟨l.text, whole⟩ (List.dropWhile_suffix isBlank), by omega⟩

end Lexeme

/-- A text splits into lexemes, with blanks between them or none. -/
inductive Lexes : List Char → List Lexeme → Prop where
  | done {cs : List Char} (blank : ∀ c ∈ cs, isBlank c = true) : Lexes cs []
  | next {cs rest : List Char} {l : Lexeme} {ls : List Lexeme}
      (first : Lexeme.read? (cs.dropWhile isBlank) = some (l, rest)) (others : Lexes rest ls) :
      Lexes cs (l :: ls)

namespace Lexes

variable {cs more : List Char} {ls ms : List Lexeme} {s : Symbol}

theorem skip (blank : ∀ c ∈ cs, isBlank c = true) (h : Lexes more ls) : Lexes (cs ++ more) ls := by
  cases h with
  | done rest => exact .done (List.forall_mem_append.2 ⟨blank, rest⟩)
  | next first others => exact .next (by rwa [List.dropWhile_append_of_pos blank]) others

theorem nil_iff : Lexes [] ls ↔ ls = [] := by
  constructor
  · intro h
    cases h with
    | done blank => rfl
    | next first others => cases first
  · rintro rfl
    exact .done nofun

/-- What comes behind a break is split on its own. -/
theorem append (h : Lexes cs ls) (hm : Breaks more) (h' : Lexes more ms) :
    Lexes (cs ++ more) (ls ++ ms) := by
  induction h with
  | done blank => exact h'.skip blank
  | @next cs rest l ls first others ih =>
    refine .next ?_ ih
    rw [List.dropWhile_append, if_neg, Lexeme.read?_append first hm]
    -- a lexeme comes first, so that there is more of the text than blanks
    intro none
    rw [List.isEmpty_iff.1 none] at first
    cases first

end Lexes

section Whole

variable {cs rest : List Char} {l : Lexeme} {ls : List Lexeme} {fuel offset : Nat}

/-- What is left behind a lexeme has no blanks at its end either. -/
theorem solid_of_suffix (h : rest <:+ cs) (solid : dropEndWhile isBlank cs = cs) :
    dropEndWhile isBlank rest = rest := by
  obtain ⟨before, rfl⟩ := h
  refine List.rdropWhile_eq_self_iff.2 fun nonempty => ?_
  have last := List.rdropWhile_eq_self_iff.1 solid
    (List.append_ne_nil_of_right_ne_nil before nonempty)
  rwa [List.getLast_append_of_ne_nil _ nonempty] at last

/-- A text without blanks at its end is cut into the lexemes that it splits into, if the fuel is
enough for its characters. -/
theorem lexFrom_eq_ok_iff (enough : cs.length ≤ fuel) (solid : dropEndWhile isBlank cs = cs) :
    lexFrom fuel offset cs = .ok ls ↔ Lexes cs ls := by
  induction fuel generalizing offset cs ls with
  | zero =>
    obtain rfl := List.length_eq_zero_iff.1 (Nat.le_zero.1 enough)
    rw [lexFrom, Lexes.nil_iff, Except.ok.injEq, eq_comm]
  | succ fuel ih =>
    cases cs with
    | nil => rw [lexFrom, Lexes.nil_iff, Except.ok.injEq, eq_comm]
    | cons c cs =>
      have others {l : Lexeme} {rest : List Char} {offset : Nat} {ms : List Lexeme}
          (first : Lexeme.read? ((c :: cs).dropWhile isBlank) = some (l, rest)) :
          lexFrom fuel offset rest = .ok ms ↔ Lexes rest ms := by
        obtain ⟨suffix, shorter⟩ := Lexeme.suffix_of_read? first
        exact ih (by omega) (solid_of_suffix suffix solid)
      constructor
      · intro h
        simp only [lexFrom] at h
        split at h
        · cases h
        · rename_i first
          obtain ⟨ms, hms, rfl⟩ := Result.map_eq_ok.1 h
          exact .next first ((others first).1 hms)
      · intro h
        cases h with
        | done blank =>
          rw [dropEndWhile, ← List.rdropWhile, List.rdropWhile_eq_nil_iff.2 blank] at solid
          cases solid
        | next first rest =>
          simp only [lexFrom, first]
          exact Result.map_eq_ok.2 ⟨_, (others first).2 rest, rfl⟩

end Whole

end TokenGate.Condition
