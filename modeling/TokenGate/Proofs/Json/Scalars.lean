import TokenGate.Json.Reader
import TokenGate.Json.Writer
import TokenGate.Proofs.Text

/-!
# Texts and integers in JSON

A text that has been written is read back as the same text, and so is an integer, whatever comes
after them. An escape is only ambiguous together with the one that follows it, as the two may be a
pair of surrogates; therefore the characters of a text are read under the condition that an escape
that follows is complete.
-/

namespace TokenGate.Text

theorem hexValue?_hexDigit : ∀ n < 16, hexValue? (hexDigit n) = some n := by decide

theorem hex_four (n : Nat) :
    hex 4 n = [hexDigit (n / 16 / 16 / 16 % 16), hexDigit (n / 16 / 16 % 16),
      hexDigit (n / 16 % 16), hexDigit (n % 16)] := rfl

theorem toNat_lt (c : Char) : c.toNat < 0x110000 := by
  rcases c.valid with below | ⟨-, above⟩
  · exact Nat.lt_trans below (by decide)
  · exact above

theorem digitValue_of_isDigit {c : Char} (h : c.isDigit = true) : digitValue c = c.toNat - 48 := by
  have range : 48 ≤ c.toNat ∧ c.toNat ≤ 57 := Char.isDigit_iff_toNat.1 h
  have first : (48 ≤ c.toNat && c.toNat ≤ 48 + 9) = true := by
    simp only [Bool.and_eq_true, decide_eq_true_eq]
    omega
  rw [digitValue, digitValue?, digitZeros, List.find?_cons, first]
  rfl

theorem foldl_digits {ds : List Char} (h : ∀ c ∈ ds, c.isDigit = true) (n : Nat) :
    ds.foldl (fun n c => 10 * n + digitValue c) n = Nat.ofDigitChars 10 ds n := by
  induction ds generalizing n with
  | nil => rfl
  | cons c rest ih =>
    rw [List.foldl_cons, ih (fun d hd => h d (List.mem_cons_of_mem _ hd)),
      digitValue_of_isDigit (h c List.mem_cons_self), Nat.ofDigitChars_cons]
    rfl

/-- The digits of a number write it. -/
theorem digitsValue_toDigits (n : Nat) : digitsValue (Nat.toDigits 10 n) = n := by
  have digits : ∀ c ∈ Nat.toDigits 10 n, c.isDigit = true := fun c hc =>
    Nat.isDigit_of_mem_toDigits (by decide) (by decide) hc
  rw [digitsValue, foldl_digits digits]
  exact Nat.ofDigitChars_toDigits (by decide) (by decide)

end TokenGate.Text

namespace TokenGate.Json

theorem hexCode?_hexDigits {n : Nat} (h : n < 0x10000) :
    hexCode? (Text.hexDigit (n / 16 / 16 / 16 % 16)) (Text.hexDigit (n / 16 / 16 % 16))
      (Text.hexDigit (n / 16 % 16)) (Text.hexDigit (n % 16)) = some n := by
  have value (m : Nat) : Text.hexValue? (Text.hexDigit (m % 16)) = some (m % 16) :=
    Text.hexValue?_hexDigit _ (Nat.mod_lt m (by decide))
  simp only [hexCode?, value, bind, Option.bind, pure, Option.some.injEq]
  omega

/-- What stands for a character in a JSON text: a letter after a backslash, the character itself,
or one escape or two, according to its code. -/
theorem charText_cases (c : Char) :
    (∃ e, charText c = ['\\', e] ∧ escaped? e = some c ∧ e ≠ 'u') ∨
      (charText c = [c] ∧ c ≠ '"' ∧ c ≠ '\\' ∧ 0x20 ≤ c.toNat) ∨
      (c.toNat < 0x10000 ∧ charText c = unitEscape c.toNat) ∨
      (0x10000 ≤ c.toNat ∧ charText c =
        unitEscape (0xD800 + (c.toNat - 0x10000) / 0x400) ++
          unitEscape (0xDC00 + (c.toNat - 0x10000) % 0x400)) := by
  have code {n : Nat} (h : c.toNat = n) : Char.ofNat n = c := by rw [← h, Char.ofNat_toNat]
  unfold charText
  simp only
  by_cases quote : c = '"' ∨ c = '\\'
  · rw [if_pos quote]
    rcases quote with rfl | rfl
    · exact .inl ⟨'"', rfl, rfl, by decide⟩
    · exact .inl ⟨'\\', rfl, rfl, by decide⟩
  rw [if_neg quote]
  rw [not_or] at quote
  by_cases feed : c = '\n'
  · exact .inl ⟨'n', by rw [if_pos feed], by rw [feed]; rfl, by decide⟩
  rw [if_neg feed]
  by_cases carriage : c = '\r'
  · exact .inl ⟨'r', by rw [if_pos carriage], by rw [carriage]; rfl, by decide⟩
  rw [if_neg carriage]
  by_cases tab : c = '\t'
  · exact .inl ⟨'t', by rw [if_pos tab], by rw [tab]; rfl, by decide⟩
  rw [if_neg tab]
  by_cases back : c.toNat = 8
  · exact .inl ⟨'b', by rw [if_pos back], congrArg some (code back), by decide⟩
  rw [if_neg back]
  by_cases form : c.toNat = 12
  · exact .inl ⟨'f', by rw [if_pos form], congrArg some (code form), by decide⟩
  rw [if_neg form]
  by_cases plain : 0x20 ≤ c.toNat ∧ c.toNat < 0x7F
  · exact .inr (.inl ⟨if_pos plain, quote.1, quote.2, plain.1⟩)
  rw [if_neg plain]
  by_cases short : c.toNat < 0x10000
  · exact .inr (.inr (.inl ⟨short, if_pos short⟩))
  · exact .inr (.inr (.inr ⟨Nat.le_of_not_lt short, if_neg short⟩))

/-- Where a text goes on with an escape, the escape is complete. -/
def WellEscaped (cs : List Char) : Prop :=
  ∀ a b c d rest, cs = '\\' :: 'u' :: a :: b :: c :: d :: rest → ∃ n, hexCode? a b c d = some n

theorem wellEscaped_unitEscape {n : Nat} (h : n < 0x10000) (rest : List Char) :
    WellEscaped (unitEscape n ++ rest) := by
  intro a b c d rest' heq
  rw [unitEscape, Text.hex_four] at heq
  simp only [List.cons_append, List.nil_append, List.cons.injEq, true_and] at heq
  obtain ⟨rfl, rfl, rfl, rfl, -⟩ := heq
  exact ⟨n, hexCode?_hexDigits h⟩

theorem wellEscaped_charText (c : Char) (rest : List Char) : WellEscaped (charText c ++ rest) := by
  rcases charText_cases c with ⟨e, text, -, he⟩ | ⟨text, -, hc, -⟩ | ⟨short, text⟩ | ⟨long, text⟩
  · rw [text]
    intro a b c d rest' heq
    simp only [List.cons_append, List.cons.injEq, true_and] at heq
    exact absurd heq.1 he
  · rw [text]
    intro a b c d rest' heq
    simp only [List.cons_append, List.cons.injEq] at heq
    exact absurd heq.1 hc
  · rw [text]
    exact wellEscaped_unitEscape short rest
  · have := Text.toNat_lt c
    rw [text, List.append_assoc]
    exact wellEscaped_unitEscape (by omega) _

theorem wellEscaped_body (cs rest : List Char) :
    WellEscaped (cs.flatMap charText ++ '"' :: rest) := by
  cases cs with
  | nil =>
    intro a b c d rest' heq
    cases heq
  | cons c others =>
    rw [List.flatMap_cons, List.append_assoc]
    exact wellEscaped_charText c _

section Reading

variable {rest : List Char}

theorem readText_escaped {c e : Char} (h : escaped? e = some c) (he : e ≠ 'u') (acc : List Char) :
    readText acc ('\\' :: e :: rest) = readText (c :: acc) rest := by
  rw [readText.eq_5]
  · rw [h]
  · intro _ _ _ _ _ _ _ _ _ hu
    exact absurd hu he
  · intro _ _ _ _ _ hu
    exact absurd hu he

theorem readText_plain {c : Char} (quote : c ≠ '"') (slash : c ≠ '\\') (h : 0x20 ≤ c.toNat)
    (acc : List Char) : readText acc (c :: rest) = readText (c :: acc) rest := by
  rw [readText.eq_6, if_neg (Nat.not_lt.2 h)]
  · exact quote
  · intro _ _ _ _ _ _ _ _ _ hs
    exact absurd hs slash
  · intro _ _ _ _ _ hs
    exact absurd hs slash
  · intro _ _ hs
    exact absurd hs slash

/-- An escape of a character is read as this character, if an escape that follows is complete: the
two are no pair of surrogates, as no character has the code of one. -/
theorem readText_unitEscape {c : Char} (short : c.toNat < 0x10000) (h : WellEscaped rest)
    (acc : List Char) : readText acc (unitEscape c.toNat ++ rest) = readText (c :: acc) rest := by
  have valid : c.toNat.isValidChar := c.valid
  have read := hexCode?_hexDigits short
  rw [unitEscape, Text.hex_four]
  simp only [List.cons_append, List.nil_append]
  by_cases follows : ∃ e f g k others, rest = '\\' :: 'u' :: e :: f :: g :: k :: others
  · obtain ⟨e, f, g, k, others, rfl⟩ := follows
    obtain ⟨low, hlow⟩ := h e f g k others rfl
    have single : ¬ (0xD800 ≤ c.toNat ∧ c.toNat < 0xDC00 ∧ 0xDC00 ≤ low ∧ low < 0xE000) := by
      rcases valid with below | above <;> omega
    rw [readText.eq_3, read, hlow]
    simp only [if_neg single, if_pos valid, Char.ofNat_toNat]
  · rw [readText.eq_4, read]
    · simp only [if_pos valid, Char.ofNat_toNat]
    · intro e f g k others heq
      exact follows ⟨e, f, g, k, others, heq⟩

theorem readText_pair {c : Char} (long : 0x10000 ≤ c.toNat) (acc : List Char) :
    readText acc (unitEscape (0xD800 + (c.toNat - 0x10000) / 0x400) ++
      (unitEscape (0xDC00 + (c.toNat - 0x10000) % 0x400) ++ rest)) = readText (c :: acc) rest := by
  have bound := Text.toNat_lt c
  have joined : joinSurrogates (0xD800 + (c.toNat - 0x10000) / 0x400)
      (0xDC00 + (c.toNat - 0x10000) % 0x400) = c.toNat := by
    unfold joinSurrogates
    omega
  generalize hhigh : 0xD800 + (c.toNat - 0x10000) / 0x400 = high at joined
  generalize hlow : 0xDC00 + (c.toNat - 0x10000) % 0x400 = low at joined
  have pair : 0xD800 ≤ high ∧ high < 0xDC00 ∧ 0xDC00 ≤ low ∧ low < 0xE000 := by omega
  rw [unitEscape, unitEscape, Text.hex_four, Text.hex_four]
  simp only [List.cons_append, List.nil_append]
  rw [readText.eq_3, hexCode?_hexDigits (by omega), hexCode?_hexDigits (by omega)]
  simp only [if_pos pair, joined, Char.ofNat_toNat]

theorem readText_charText (c : Char) (h : WellEscaped rest) (acc : List Char) :
    readText acc (charText c ++ rest) = readText (c :: acc) rest := by
  rcases charText_cases c with ⟨e, text, hc, he⟩ | ⟨text, quote, slash, above⟩ | ⟨short, text⟩ |
    ⟨long, text⟩
  · rw [text]
    exact readText_escaped hc he acc
  · rw [text]
    exact readText_plain quote slash above acc
  · rw [text]
    exact readText_unitEscape short h acc
  · rw [text, List.append_assoc]
    exact readText_pair long acc

theorem readText_body (cs acc rest : List Char) :
    readText acc (cs.flatMap charText ++ '"' :: rest) =
      some (String.ofList (acc.reverse ++ cs), rest) := by
  induction cs generalizing acc with
  | nil =>
    rw [List.flatMap_nil, List.nil_append, readText.eq_2, List.append_nil]
  | cons c others ih =>
    rw [List.flatMap_cons, List.append_assoc, readText_charText c (wellEscaped_body others rest),
      ih, List.reverse_cons, List.append_assoc]
    rfl

/-- A text that has been written is read back. -/
theorem readText_stringText (s : String) (rest : List Char) :
    ∃ body, stringText s ++ rest = '"' :: body ∧ readText [] body = some (s, rest) := by
  refine ⟨s.toList.flatMap charText ++ '"' :: rest, ?_, ?_⟩
  · rw [stringText, List.cons_append, List.append_assoc]
    rfl
  · rw [readText_body, List.reverse_nil, List.nil_append, String.ofList_toList]

end Reading

/-- No number goes on with what comes next. -/
def EndsNumber (rest : List Char) : Prop :=
  ∀ c others, rest = c :: others → c.isDigit = false ∧ c ≠ '.' ∧ c ≠ 'e' ∧ c ≠ 'E'

theorem endsNumber_nil : EndsNumber [] := nofun

theorem endsNumber_cons {c : Char} (h : c.isDigit = false ∧ c ≠ '.' ∧ c ≠ 'e' ∧ c ≠ 'E')
    (others : List Char) : EndsNumber (c :: others) := by
  intro c' others' heq
  cases heq
  exact h

theorem takeDigits_append {ds rest : List Char} (h : ∀ c ∈ ds, c.isDigit = true)
    (ends : EndsNumber rest) : takeDigits (ds ++ rest) = (ds, rest) := by
  have stops : Text.Stops Char.isDigit rest := by
    intro c hc
    obtain ⟨others, rfl⟩ := List.head?_eq_some_iff.1 hc
    exact (ends c others rfl).1
  rw [takeDigits, Text.takeWhile_append_of_stops stops, Text.dropWhile_append_of_stops stops,
    List.takeWhile_eq_self_iff.2 h, List.dropWhile_eq_nil_iff.2 h, List.nil_append]

theorem readFraction_of_endsNumber {rest : List Char} (ends : EndsNumber rest) :
    readFraction rest = ([], rest) := by
  unfold readFraction
  split
  · exact absurd rfl (ends _ _ rfl).2.1
  · rfl

theorem readExponent_of_endsNumber {rest : List Char} (ends : EndsNumber rest) :
    readExponent rest = (none, rest) := by
  cases rest with
  | nil => rfl
  | cons c others =>
    obtain ⟨-, -, small, large⟩ := ends c others rfl
    have neither : ¬ (c = 'e' ∨ c = 'E') := by
      rintro (h | h)
      · exact small h
      · exact large h
    simp only [readExponent, if_neg neither]

/-- Only zero is written with a zero at the front. -/
theorem head_toDigits {n : Nat} (h : 0 < n) : ∃ c ds, Nat.toDigits 10 n = c :: ds ∧ c ≠ '0' := by
  induction n using Nat.strongRecOn with
  | ind n ih =>
    rw [Nat.toDigits_eq_if (by decide)]
    by_cases small : n < 10
    · rw [if_pos small]
      refine ⟨_, [], rfl, ?_⟩
      have digits : ∀ m < 10, 0 < m → m.digitChar ≠ '0' := by decide
      exact digits n small h
    · rw [if_neg small]
      obtain ⟨c, ds, hds, hc⟩ := ih (n / 10) (by omega) (by omega)
      exact ⟨c, ds ++ [(n % 10).digitChar], by rw [hds]; rfl, hc⟩

theorem readMagnitude_toDigits (negative : Bool) (n : Nat) {rest : List Char}
    (ends : EndsNumber rest) : readMagnitude negative (Nat.toDigits 10 n ++ rest) =
      some (.int (if negative then -n else n), rest) := by
  have fraction := readFraction_of_endsNumber ends
  have exponent := readExponent_of_endsNumber ends
  rcases Nat.eq_zero_or_pos n with rfl | positive
  · show readMagnitude negative ('0' :: rest) = _
    simp only [readMagnitude, fraction, exponent]
    rfl
  · obtain ⟨c, ds, hds, hc⟩ := head_toDigits positive
    have digits : ∀ d ∈ c :: ds, d.isDigit = true := fun d hd =>
      Nat.isDigit_of_mem_toDigits (by decide) (by decide) (hds ▸ hd)
    have value : Text.digitsValue (c :: ds) = n := by rw [← hds, Text.digitsValue_toDigits]
    have taken := takeDigits_append digits ends
    rw [hds]
    unfold readMagnitude
    split
    · rename_i others heq
      rw [List.cons_append, List.cons.injEq] at heq
      exact absurd heq.1 hc
    · simp only [taken, fraction, exponent, value]
      rfl

theorem toString_ofNat (m : Nat) : (toString (Int.ofNat m)).toList = Nat.toDigits 10 m :=
  Nat.toList_repr

theorem toString_negSucc (m : Nat) :
    (toString (Int.negSucc m)).toList = '-' :: Nat.toDigits 10 (m + 1) := by
  show ("-" ++ (m + 1).repr).toList = _
  rw [String.toList_append, Nat.toList_repr]
  rfl

theorem toDigits_begins (m : Nat) : ∃ c ds, Nat.toDigits 10 m = c :: ds ∧ c.isDigit = true := by
  cases hds : Nat.toDigits 10 m with
  | nil => exact absurd hds Nat.toDigits_ne_nil
  | cons c ds =>
    refine ⟨c, ds, rfl, ?_⟩
    apply Nat.isDigit_of_mem_toDigits (b := 10) (n := m) (by decide) (by decide)
    rw [hds]
    exact List.mem_cons_self

/-- What begins with a digit is none of the names of doubles. -/
theorem readNumber_digit {c : Char} (digit : c.isDigit = true) (cs : List Char) :
    readNumber (c :: cs) = readMagnitude false (c :: cs) := by
  unfold readNumber
  split
  case h_5 => rfl
  all_goals
    rename_i heq
    rw [(List.cons.inj heq).1] at digit
    exact absurd digit (by decide)

theorem readNumber_minus {c : Char} (digit : c.isDigit = true) (cs : List Char) :
    readNumber ('-' :: c :: cs) = readMagnitude true (c :: cs) := by
  unfold readNumber
  split
  case h_3 heq =>
    rw [(List.cons.inj (List.cons.inj heq).2).1] at digit
    exact absurd digit (by decide)
  case h_4 heq =>
    rw [(List.cons.inj heq).2]
  case h_5 bare => exact absurd rfl (bare _)
  all_goals
    rename_i heq
    exact absurd (List.cons.inj heq).1 (by decide)

/-- An integer that has been written is read back. -/
theorem readNumber_toString (n : Int) {rest : List Char} (ends : EndsNumber rest) :
    readNumber ((toString n).toList ++ rest) = some (.int n, rest) := by
  cases n with
  | ofNat m =>
    obtain ⟨c, ds, hds, digit⟩ := toDigits_begins m
    have read := readMagnitude_toDigits false m ends
    rw [hds] at read
    rw [toString_ofNat, hds]
    exact (readNumber_digit digit _).trans read
  | negSucc m =>
    obtain ⟨c, ds, hds, digit⟩ := toDigits_begins (m + 1)
    have read := readMagnitude_toDigits true (m + 1) ends
    rw [hds] at read
    rw [toString_negSucc, hds]
    exact (readNumber_minus digit _).trans read

end TokenGate.Json
