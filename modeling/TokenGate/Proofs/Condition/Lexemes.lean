import TokenGate.Proofs.Condition.Lexing

/-!
# What lexemes there are

A lexeme is a number, a quotation, a symbol or a dotted name, and something is read exactly where
there is one. What has been read in front of some characters is read just as well where the text is
cut off before them, so that only the characters of a lexeme decide about it, and the fact that it
does not go on.
-/

namespace TokenGate.Condition

open Text

/-- Identifiers with points between them. -/
inductive Dotted : List Char → Prop
  | single {part : List Char} (h : isIdentifier part = true) : Dotted part
  | more {part rest : List Char} (h : isIdentifier part = true) (others : Dotted rest) :
      Dotted (part ++ '.' :: rest)

/-- What lexemes there are: numbers in decimal digits, quotations that go up to the next mark,
symbols, and dotted names. -/
def Lexeme.Formed : Lexeme → Prop
  | number whole fraction =>
      whole ≠ [] ∧ (∀ c ∈ whole, isDecimal c = true) ∧ ∀ c ∈ fraction, isDecimal c = true
  | quotation mark body => (mark = singleQuote ∨ mark = doubleQuote) ∧ mark ∉ body
  | symbol _ => True
  | name t => Dotted t

/-- A character that is neither a blank nor a quotation mark. -/
structure Plain (c : Char) : Prop where
  solid : isBlank c = false
  single : c ≠ singleQuote
  double : c ≠ doubleQuote

namespace Plain

variable {c : Char}

theorem of_isDecimal (h : isDecimal c = true) : Plain c := by
  refine ⟨?_, ?_, ?_⟩
  · rw [← Bool.not_eq_true]
    intro blank
    rw [isDecimal_of_isBlank blank] at h
    cases h
  · rintro rfl
    exact absurd h (by decide)
  · rintro rfl
    exact absurd h (by decide)

theorem of_isNamePart (h : isNamePart c = true) : Plain c := by
  refine ⟨isBlank_of_isNamePart h, ?_, ?_⟩
  · rintro rfl
    exact absurd h (by decide)
  · rintro rfl
    exact absurd h (by decide)

theorem of_isNameStart (h : isNameStart c = true) : Plain c := by
  apply of_isNamePart
  simp only [isNameStart, isNamePart, isLetterOrDigit, Bool.or_eq_true] at h ⊢
  exact h.imp_left .inl

instance : DecidablePred Plain := fun c =>
  decidable_of_iff (isBlank c = false ∧ c ≠ singleQuote ∧ c ≠ doubleQuote)
    ⟨fun ⟨solid, single, double⟩ => ⟨solid, single, double⟩,
      fun h => ⟨h.solid, h.single, h.double⟩⟩

theorem point : Plain '.' := by decide

end Plain

/-- The mark of a quotation is no blank. -/
theorem isBlank_of_quote {mark : Char} (quote : mark = singleQuote ∨ mark = doubleQuote) :
    isBlank mark = false := by
  rcases quote with rfl | rfl
  · decide
  · decide

section Cut

variable {p : Char → Bool} {cs more rest : List Char}

theorem stops_of_append (h : Stops p (cs ++ more)) : Stops p cs := by
  intro c hc
  cases cs with
  | nil => cases hc
  | cons d cs => exact h c hc

theorem stops_dropWhile (p : Char → Bool) (cs : List Char) : Stops p (cs.dropWhile p) := by
  intro c hc
  have last := List.head?_dropWhile_not p cs
  rw [Option.mem_def.1 hc] at last
  exact last

/-- Where the characters of a class end before a text is cut off, the cut does not matter. -/
theorem takeWhile_of_dropWhile_append (h : (cs ++ more).dropWhile p = rest ++ more) :
    (cs ++ more).takeWhile p = cs.takeWhile p ∧ cs.dropWhile p = rest := by
  have front : cs = (cs ++ more).takeWhile p ++ rest := by
    have whole := List.takeWhile_append_dropWhile (p := p) (l := cs ++ more)
    rw [h, ← List.append_assoc] at whole
    exact (List.append_cancel_right whole).symm
  have stops : Stops p rest := by
    have ends := stops_dropWhile p (cs ++ more)
    rw [h] at ends
    exact stops_of_append ends
  have all : ∀ c ∈ (cs ++ more).takeWhile p, p c = true := fun c hc => List.mem_takeWhile_imp hc
  have taken := takeWhile_append_of_stops stops ((cs ++ more).takeWhile p)
  have dropped := dropWhile_append_of_stops stops ((cs ++ more).takeWhile p)
  rw [← front, List.takeWhile_eq_self_iff.2 all] at taken
  rw [← front, List.dropWhile_eq_nil_iff.2 all] at dropped
  exact ⟨taken.symm, dropped⟩

end Cut

theorem Symbol.plain_of_mem_text (s : Symbol) : ∀ c ∈ s.text, Plain c := by
  have all : s.text.all (fun c => decide (Plain c)) = true := by
    fun_cases text s <;> decide
  intro c hc
  exact of_decide_eq_true (List.all_eq_true.1 all c hc)

/-- No symbol begins like another kind of lexeme. -/
theorem Symbol.exists_text_eq (s : Symbol) :
    ∃ c t, s.text = c :: t ∧ isDecimal c = false ∧ ¬ (c = singleQuote ∨ c = doubleQuote) ∧
      isNameStart c = false := by
  fun_cases text s <;> exact ⟨_, _, rfl, by decide, by decide, by decide⟩

/-- A symbol that is there is read, or the longer one that it begins. -/
theorem Symbol.exists_read? (s : Symbol) (more : List Char) :
    ∃ found, read? (s.text ++ more) = some found := by
  -- where two symbols begin alike, the longer one goes on with an equals sign
  have shared {c : Char} {t : Symbol}
      (short : ∀ more, (∀ rest, more = '=' :: rest → False) → read? (c :: more) = some (t, more))
      (long : ∀ rest, ∃ found, read? (c :: '=' :: rest) = some found) :
      ∃ found, read? (c :: more) = some found := by
    by_cases equal : ∃ rest, more = '=' :: rest
    · obtain ⟨rest, rfl⟩ := equal
      exact long rest
    · exact ⟨_, short more fun rest same => equal ⟨rest, same⟩⟩
  cases s with
  | or | and | opening | closing => exact ⟨_, rfl⟩
  | not => exact shared (fun more alone => by rw [read?]; exact alone) fun rest => ⟨_, rfl⟩
  | compare c =>
    cases c with
    | equal | notEqual | atMost | atLeast => exact ⟨_, rfl⟩
    | less => exact shared (fun more alone => by rw [read?]; exact alone) fun rest => ⟨_, rfl⟩
    | greater => exact shared (fun more alone => by rw [read?]; exact alone) fun rest => ⟨_, rfl⟩

theorem Symbol.read?_of_append {s : Symbol} {cs more rest : List Char}
    (h : read? (cs ++ more) = some (s, rest ++ more)) : read? cs = some (s, rest) := by
  have whole := text_append_of_read? h
  rw [← List.append_assoc] at whole
  obtain rfl := List.append_cancel_right whole
  cases s with
  | or | and | opening | closing => rfl
  | not =>
    rw [text, List.cons_append, List.nil_append, read?]
    rintro rest' rfl
    cases h
  | compare c =>
    cases c with
    | equal | notEqual | atMost | atLeast => rfl
    | less =>
      rw [text, List.cons_append, List.nil_append, read?]
      rintro rest' rfl
      cases h
    | greater =>
      rw [text, List.cons_append, List.nil_append, read?]
      rintro rest' rfl
      cases h

namespace Lexeme

variable {l : Lexeme} {cs more rest t : List Char}

theorem readFraction_of_append (h : readFraction (cs ++ more) = (t, rest ++ more)) :
    readFraction cs = (t, rest) := by
  have whole := text_readFraction (cs ++ more)
  rw [h, ← List.append_assoc] at whole
  have front := List.append_cancel_right whole
  cases cs with
  | nil =>
    obtain ⟨none, rfl⟩ := List.append_eq_nil_iff.1 front
    have absent : t = [] := by simpa using none
    rw [absent]
    apply readFraction_other
    intro rest point
    cases point
  | cons c cs =>
    by_cases point : c = '.'
    · subst point
      by_cases none : ((cs ++ more).takeWhile isDecimal).isEmpty
      · rw [List.cons_append, readFraction, if_pos none] at h
        obtain ⟨rfl, after⟩ := Prod.mk.inj h
        obtain rfl := List.append_cancel_right (List.cons_append.trans after)
        have early : (cs.takeWhile isDecimal).isEmpty := by
          cases cs with
          | nil => rfl
          | cons d cs => simpa [List.takeWhile_cons] using none
        rw [readFraction, if_pos early]
      · rw [List.cons_append, readFraction, if_neg none] at h
        obtain ⟨rfl, after⟩ := Prod.mk.inj h
        obtain ⟨taken, dropped⟩ := takeWhile_of_dropWhile_append after
        rw [readFraction, ← taken, if_neg none, dropped]
    · have other (ds : List Char) : ∀ ds', c :: ds = '.' :: ds' → False := by
        rintro ds' ⟨⟩
        exact point rfl
      rw [List.cons_append, readFraction_other (other _)] at h
      obtain ⟨rfl, after⟩ := Prod.mk.inj h
      obtain rfl := List.append_cancel_right (List.cons_append.trans after)
      exact readFraction_other (other _)

/-- A tail of a name and what is left make up the text that was read. -/
theorem append_of_nameTail (h : nameTail (cs ++ more) = (t, rest ++ more)) : t ++ rest = cs := by
  have whole := nameTail_fst_append_snd (cs ++ more)
  rw [h, ← List.append_assoc] at whole
  exact List.append_cancel_right whole

theorem nameTail_of_append (h : nameTail (cs ++ more) = (t, rest ++ more)) :
    nameTail cs = (t, rest) := by
  fun_induction nameTail cs generalizing t rest with
  | case1 =>
    obtain ⟨rfl, rfl⟩ := List.append_eq_nil_iff.1 (append_of_nameTail h)
    rfl
  | case2 c cs start u after eq ih =>
    rw [List.cons_append, List.cons_append, nameTail, if_pos start] at h
    obtain ⟨rfl, left⟩ := Prod.mk.inj h
    obtain ⟨rfl, rfl⟩ := Prod.mk.inj (eq.symm.trans (ih (Prod.ext rfl left)))
    rfl
  | case3 c cs start =>
    rw [List.cons_append, List.cons_append, nameTail, if_neg start] at h
    obtain ⟨rfl, left⟩ := Prod.mk.inj h
    rw [← List.cons_append, ← List.cons_append] at left
    rw [List.append_cancel_right left]
  | case4 c cs point part u after eq ih =>
    have other : c ≠ '.' := by
      rintro rfl
      exact absurd part (by decide)
    rw [List.cons_append, nameTail_other other, if_pos part] at h
    obtain ⟨rfl, left⟩ := Prod.mk.inj h
    obtain ⟨rfl, rfl⟩ := Prod.mk.inj (eq.symm.trans (ih (Prod.ext rfl left)))
    rfl
  | case5 c cs point part =>
    have front := append_of_nameTail h
    cases t with
    | nil =>
      rw [List.nil_append] at front
      rw [front]
    | cons d t =>
      -- a point is no tail by itself
      exfalso
      by_cases other : c = '.'
      · subst other
        cases cs with
        | nil =>
          rw [List.cons_append, List.nil_append] at h
          cases more with
          | nil => cases h
          | cons e more =>
            rw [nameTail] at h
            split at h
            · obtain ⟨longer, -⟩ := Prod.mk.inj h
              obtain ⟨-, rfl⟩ := List.cons.inj longer
              cases front
            · cases h
        | cons d cs => exact point d cs rfl rfl
      · rw [List.cons_append, nameTail_other other, if_neg part] at h
        cases h

/-- What has been read is read as well if the text is cut off somewhere behind it. -/
theorem read?_of_append (h : read? (cs ++ more) = some (l, rest ++ more)) :
    read? cs = some (l, rest) := by
  have whole := text_append_of_read? h
  rw [← List.append_assoc] at whole
  have front := List.append_cancel_right whole
  cases cs with
  | nil => exact absurd (List.append_eq_nil_iff.1 front).1 (text_ne_nil_of_read? h)
  | cons c cs =>
    rw [List.cons_append, read?] at h
    rw [read?]
    by_cases digit : isDecimal c
    · rw [if_pos digit] at h ⊢
      have tail := text_readFraction ((cs ++ more).dropWhile isDecimal)
      cases read : readFraction ((cs ++ more).dropWhile isDecimal) with
      | mk fraction after =>
        rw [read] at h tail
        obtain ⟨rfl, rfl⟩ := Prod.mk.inj (Option.some.inj h)
        rw [← List.append_assoc] at tail
        obtain ⟨taken, dropped⟩ := takeWhile_of_dropWhile_append tail.symm
        rw [← tail, ← dropped] at read
        rw [taken, readFraction_of_append read]
    · rw [if_neg digit] at h ⊢
      by_cases quote : c = singleQuote ∨ c = doubleQuote
      · rw [if_pos quote] at h ⊢
        obtain ⟨body, hbody, rfl, split⟩ := readQuotation_eq_some_iff.1 h
        rw [← List.cons_append, ← List.append_assoc] at split
        exact readQuotation_eq_some_iff.2 ⟨body, hbody, rfl, List.append_cancel_right split⟩
      · rw [if_neg quote] at h ⊢
        by_cases start : isNameStart c
        · rw [if_pos start] at h ⊢
          obtain ⟨rfl, after⟩ := Prod.mk.inj (Option.some.inj h)
          rw [nameTail_of_append (Prod.ext rfl after)]
        · rw [if_neg start] at h ⊢
          obtain ⟨⟨s, after⟩, read, same⟩ := Option.map_eq_some_iff.1 h
          obtain ⟨rfl, rfl⟩ := Prod.mk.inj same
          rw [Symbol.read?_of_append read]
          rfl

theorem isDecimal_of_mem_readFraction {c : Char} (hc : c ∈ (readFraction cs).1) :
    isDecimal c = true := by
  revert hc
  fun_cases readFraction cs with
  | case1 rest none => exact nofun
  | case2 rest some => exact List.mem_takeWhile_imp
  | case3 => exact nofun

theorem isIdentifier_append {part : List Char} {c : Char} (hpart : isIdentifier part = true)
    (hc : isNamePart c = true) : isIdentifier (part ++ [c]) = true := by
  cases part with
  | nil => cases hpart
  | cons d rest =>
    rw [isIdentifier, Bool.and_eq_true, List.all_eq_true] at hpart
    rw [List.cons_append, isIdentifier, hpart.1, Bool.true_and, List.all_eq_true]
    exact List.forall_mem_append.2 ⟨hpart.2, List.forall_mem_singleton.2 hc⟩

/-- What continues a name goes on with the identifier before it, or with another one. -/
theorem dotted_nameTail (cs : List Char) {part : List Char} (hpart : isIdentifier part = true) :
    Dotted (part ++ (nameTail cs).1) := by
  fun_induction nameTail cs generalizing part with
  | case1 =>
    rw [List.append_nil]
    exact .single hpart
  | case2 c cs start t after eq ih =>
    have first : isIdentifier [c] = true := by simp [isIdentifier, start]
    have others := ih first
    rw [eq] at others
    exact .more hpart others
  | case3 c cs start =>
    rw [List.append_nil]
    exact .single hpart
  | case4 c cs point hc t after eq ih =>
    have whole := ih (isIdentifier_append hpart hc)
    rwa [eq, List.append_assoc] at whole
  | case5 c cs point hc =>
    rw [List.append_nil]
    exact .single hpart

/-- What is read is a lexeme. -/
theorem formed_of_read? (h : read? cs = some (l, rest)) : l.Formed := by
  revert h
  fun_cases read? cs with
  | case1 =>
    intro h
    cases h
  | case2 c cs digit fraction after hf =>
    rintro ⟨⟩
    refine ⟨List.cons_ne_nil _ _, ?_, ?_⟩
    · exact List.forall_mem_cons.2 ⟨digit, fun d hd => List.mem_takeWhile_imp hd⟩
    · intro d hd
      rw [show fraction = (readFraction (cs.dropWhile isDecimal)).1 by rw [hf]] at hd
      exact isDecimal_of_mem_readFraction hd
  | case3 c cs digit quote =>
    intro h
    obtain ⟨body, inside, rfl, -⟩ := readQuotation_eq_some_iff.1 h
    exact ⟨quote, inside⟩
  | case4 c cs digit quote start t after ht =>
    rintro ⟨⟩
    have first : isIdentifier [c] = true := by simp [isIdentifier, start]
    have dotted := dotted_nameTail cs first
    rw [ht] at dotted
    exact dotted
  | case5 c cs digit quote start =>
    intro h
    obtain ⟨⟨s, after⟩, -, ⟨⟩⟩ := Option.map_eq_some_iff.1 h
    trivial

theorem plain_of_dotted (h : Dotted t) : ∀ c ∈ t, Plain c := by
  have identifier {part : List Char} (h : isIdentifier part = true) : ∀ c ∈ part, Plain c :=
    fun c hc => .of_isNamePart (isNamePart_of_isIdentifier h c hc)
  induction h with
  | single h => exact identifier h
  | more h others ih =>
    rw [List.forall_mem_append, List.forall_mem_cons]
    exact ⟨identifier h, .point, ih⟩

/-- A lexeme is a quotation or has neither blanks nor quotation marks in it. -/
theorem plain_or_quotation (h : l.Formed) :
    (∀ c ∈ l.text, Plain c) ∨
      ∃ mark body, (mark = singleQuote ∨ mark = doubleQuote) ∧ mark ∉ body ∧
        l = quotation mark body := by
  cases l with
  | number whole fraction =>
    obtain ⟨-, digits, decimals⟩ := h
    left
    rw [text, List.forall_mem_append]
    refine ⟨fun c hc => .of_isDecimal (digits c hc), ?_⟩
    split
    · exact List.forall_mem_nil _
    · exact List.forall_mem_cons.2 ⟨.point, fun c hc => .of_isDecimal (decimals c hc)⟩
  | quotation mark body => exact .inr ⟨mark, body, h.1, h.2, rfl⟩
  | symbol s => exact .inl (Symbol.plain_of_mem_text s)
  | name t => exact .inl (plain_of_dotted h)

/-- Neither end of a lexeme is a blank. -/
theorem solid_of_read? (h : read? cs = some (l, rest)) {c : Char}
    (hc : c ∈ l.text.head? ∨ c ∈ l.text.getLast?) : isBlank c = false := by
  rcases plain_or_quotation (formed_of_read? h) with plain | ⟨mark, body, quote, -, rfl⟩
  · have inside : c ∈ l.text := hc.elim List.mem_of_mem_head? List.mem_of_mem_getLast?
    exact (plain c inside).solid
  · have outer : c = mark := by
      rcases hc with hc | hc
      · simpa [text, eq_comm] using hc
      · rw [text, ← List.cons_append, List.getLast?_concat] at hc
        simpa [eq_comm] using hc
    rw [outer]
    exact isBlank_of_quote quote

/-- A lexeme begins without a blank, so that none is skipped in front of it. -/
theorem dropWhile_text_append (h : read? cs = some (l, rest)) (more : List Char) :
    (l.text ++ more).dropWhile isBlank = l.text ++ more := by
  cases characters : l.text with
  | nil => exact absurd characters (text_ne_nil_of_read? h)
  | cons c t =>
    have solid : isBlank c = false := solid_of_read? h (.inl (by rw [characters]; rfl))
    rw [List.cons_append, List.dropWhile_cons_of_neg (by simp [solid])]

/-- Blanks at the end of a text are no part of the lexeme that it starts with. -/
theorem read?_of_append_blank (blank : ∀ c ∈ more, isBlank c = true)
    (h : read? (cs ++ more) = some (l, rest)) :
    ∃ rest', rest = rest' ++ more ∧ read? cs = some (l, rest') := by
  have whole := text_append_of_read? h
  have cut : ∃ rest', rest = rest' ++ more := by
    rcases List.append_eq_append_iff.1 whole with ⟨inside, -, left⟩ | ⟨inside, characters, left⟩
    · exact ⟨inside, left⟩
    · -- what the lexeme has of the blanks would end it
      cases last : inside.getLast? with
      | none =>
        rw [List.getLast?_eq_none_iff.1 last] at left
        exact ⟨[], left.symm⟩
      | some c =>
        have hc : c ∈ l.text.getLast? := by
          rw [characters, List.getLast?_append, last]
          rfl
        have isblank : isBlank c = true := by
          refine blank c ?_
          rw [left]
          exact List.mem_append_left _ (List.mem_of_mem_getLast? last)
        rw [solid_of_read? h (.inr hc)] at isblank
        cases isblank
  obtain ⟨rest', rfl⟩ := cut
  exact ⟨rest', rfl, read?_of_append h⟩

theorem exists_of_dotted (h : Dotted t) : ∃ c cs, t = c :: cs ∧ isNameStart c = true := by
  have first {part : List Char} (h : isIdentifier part = true) (rest : List Char) :
      ∃ c cs, part ++ rest = c :: cs ∧ isNameStart c = true := by
    cases part with
    | nil => cases h
    | cons c cs =>
      rw [isIdentifier, Bool.and_eq_true] at h
      exact ⟨c, cs ++ rest, rfl, h.1⟩
  cases h with
  | single h =>
    have alone := first h []
    rwa [List.append_nil] at alone
  | more h others => exact first h _

/-- A lexeme that is there is read, or a longer one. -/
theorem exists_read?_of_prefix (formed : l.Formed) (begins : l.text <+: cs) :
    ∃ found, read? cs = some found := by
  obtain ⟨more, rfl⟩ := begins
  cases l with
  | number whole fraction =>
    obtain ⟨nonempty, digits, -⟩ := formed
    cases whole with
    | nil => exact absurd rfl nonempty
    | cons c whole =>
      rw [text, List.cons_append, List.cons_append, read?, if_pos (digits c List.mem_cons_self)]
      exact ⟨_, rfl⟩
  | quotation mark body =>
    obtain ⟨quote, inside⟩ := formed
    have digit : ¬ isDecimal mark = true := by
      rcases quote with rfl | rfl
      · decide
      · decide
    have characters : (quotation mark body).text ++ more = mark :: (body ++ mark :: more) := by
      simp [text]
    rw [characters, read?, if_neg digit, if_pos quote]
    exact ⟨_, readQuotation_eq_some_iff.2 ⟨body, inside, rfl, rfl⟩⟩
  | symbol s =>
    obtain ⟨c, t, characters, digit, quote, start⟩ := s.exists_text_eq
    obtain ⟨found, read⟩ := s.exists_read? more
    rw [characters] at read
    rw [text, characters, List.cons_append, read?, if_neg (by simp [digit]), if_neg quote,
      if_neg (by simp [start]), ← List.cons_append, read]
    exact ⟨_, rfl⟩
  | name t =>
    obtain ⟨c, cs, rfl, start⟩ := exists_of_dotted formed
    have plain := Plain.of_isNameStart start
    rw [text, List.cons_append, read?]
    by_cases digit : isDecimal c = true
    · rw [if_pos digit]
      exact ⟨_, rfl⟩
    · rw [if_neg digit, if_neg (not_or.2 ⟨plain.single, plain.double⟩), if_pos start]
      exact ⟨_, rfl⟩

/-- Nothing is read exactly if there is no lexeme. -/
theorem read?_eq_none_iff : read? cs = none ↔ ∀ l : Lexeme, l.Formed → ¬ l.text <+: cs := by
  constructor
  · intro unread l formed begins
    obtain ⟨found, read⟩ := exists_read?_of_prefix formed begins
    rw [unread] at read
    cases read
  · intro absent
    rw [Option.eq_none_iff_forall_ne_some]
    intro ⟨l, rest⟩ read
    exact absent l (formed_of_read? read) ⟨rest, text_append_of_read? read⟩

end Lexeme

end TokenGate.Condition
