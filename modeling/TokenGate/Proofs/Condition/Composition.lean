import TokenGate.Proofs.Condition.Acceptance
import TokenGate.Proofs.Condition.Layout

/-!
# Conditions that are put together from others

In parentheses, a condition is a part of any other. The text in the parentheses splits into the
lexemes that it has alone, for it is a parenthesis that comes next, and what was derived from them
is derived again. So conditions can be joined and negated by writing them down.
-/

namespace TokenGate.Condition

open Text

namespace Joint

/-- The symbol that joins phrases in this way. -/
def symbol : Joint → Symbol
  | or => .or
  | and => .and

theorem joins_symbol (j : Joint) : j.joins (.symbol j.symbol) := by
  cases j <;> rfl

/-- Two negations or comparisons, joined. -/
def join (j : Joint) (p q : Derivation (.one .negation)) : Derivation .condition :=
  match j with
  | or => .joined (.joined p .moreEnd)
      (.moreNext (.symbol or.symbol) or.joins_symbol (.joined q .moreEnd) .moreEnd)
  | and => .joined (.joined p
      (.moreNext (.symbol and.symbol) and.joins_symbol q .moreEnd)) .moreEnd

theorem lexemes_join (j : Joint) (p q : Derivation (.one .negation)) :
    (j.join p q).lexemes = p.lexemes ++ .symbol j.symbol :: q.lexemes := by
  cases j with
  | or =>
    simp only [join, Derivation.lexemes, List.append_nil]
    rfl
  | and =>
    simp only [join, Derivation.lexemes, List.append_nil]
    rfl

theorem denote_join (j : Joint) (p q : Derivation (.one .negation)) (s : Scope) :
    (j.join p q).denote s = .value (.bool (j.test s.attributes [p.denote s, q.denote s])) := by
  cases j <;> rfl

end Joint

namespace Derivation

/-- A condition in parentheses, as a part of another. -/
def inside (d : Derivation .condition) : Derivation (.one .negation) :=
  .plain (.alone (.enclosed d))

theorem isNot_symbol : (Lexeme.symbol .not).isNot := rfl

/-- The negation of a condition in parentheses. -/
def opposite (d : Derivation .condition) : Derivation .condition :=
  .joined (.joined (.negated (.symbol .not) isNot_symbol d.inside) .moreEnd) .moreEnd

theorem lexemes_opposite (d : Derivation .condition) :
    d.opposite.lexemes = .symbol .not :: d.inside.lexemes := by
  simp [opposite, lexemes]

theorem denote_inside (d : Derivation .condition) (s : Scope) :
    d.inside.denote s = d.denote s := rfl

theorem denote_opposite (d : Derivation .condition) (s : Scope) :
    d.opposite.denote s = .value (.bool !(d.denote s).truth s.attributes) := rfl

end Derivation

namespace Lexes

variable {cs more : List Char} {ls ms : List Lexeme}

/-- What is between parentheses splits as it does alone. -/
theorem enclosed (h : Lexes cs ls) (h' : Lexes more ms) :
    Lexes ('(' :: (cs ++ ')' :: more)) (.symbol .opening :: (ls ++ .symbol .closing :: ms)) :=
  .next rfl (h.append (.closing more) (.next rfl h'))

theorem enclosed_end (h : Lexes cs ls) :
    Lexes ('(' :: (cs ++ [')'])) (.symbol .opening :: (ls ++ [.symbol .closing])) :=
  h.enclosed (.done nofun)

/-- The symbol of a joint, between spaces. -/
theorem joint (j : Joint) (h : Lexes cs ls) :
    Lexes (' ' :: (j.symbol.text ++ ' ' :: cs)) (.symbol j.symbol :: ls) := by
  have space : ∀ c ∈ [' '], isBlank c = true := List.forall_mem_singleton.2 (by decide)
  have after : Lexes (' ' :: cs) ls := h.skip space
  cases j with
  | or => exact .next rfl after
  | and => exact .next rfl after

end Lexes

section Composed

variable {e₁ e₂ : String} {c₁ c₂ : TokenGate.Condition}

/-- A text compiles to what is derived from the lexemes that it splits into. -/
theorem compile_of_lexes {text : String} {d : Derivation .condition}
    (h : Lexes text.toList d.lexemes) :
    ∃ c, compile text = .ok c ∧ ∀ s, c.expr.eval s = d.denote s := by
  have hl : lex text = .ok d.lexemes := lex_eq_ok_iff.2 h
  obtain ⟨c, hc⟩ := compile_of_derivation d hl
  obtain ⟨d', hl', hd'⟩ := derivation_of_compile hc
  obtain rfl := derivation_unique hl hl'
  exact ⟨c, hc, hd'⟩

/-- The characters of two texts in parentheses, with the symbol of a joint between them, up to the
last parenthesis. -/
def Joint.written (j : Joint) (cs₁ cs₂ : List Char) : List Char :=
  '(' :: (cs₁ ++ ')' :: ' ' :: (j.symbol.text ++ ' ' :: '(' :: cs₂))

/-- Two conditions may be joined. -/
theorem compile_joined (j : Joint) (h₁ : compile e₁ = .ok c₁) (h₂ : compile e₂ = .ok c₂)
    {text : String} (written : text.toList = j.written e₁.toList e₂.toList ++ [')']) :
    ∃ c, compile text = .ok c ∧
      ∀ s, c.holds s = j.test s.attributes [c₁.expr.eval s, c₂.expr.eval s] := by
  obtain ⟨d₁, hl₁, hd₁⟩ := derivation_of_compile h₁
  obtain ⟨d₂, hl₂, hd₂⟩ := derivation_of_compile h₂
  have lexemes : Lexes text.toList (j.join d₁.inside d₂.inside).lexemes := by
    rw [lex_eq_ok_iff] at hl₁ hl₂
    have whole := hl₁.enclosed (.joint j hl₂.enclosed_end)
    rw [written]
    rw [j.lexemes_join]
    simpa [Joint.written, Derivation.inside, Derivation.lexemes] using whole
  obtain ⟨c, hc, hd⟩ := compile_of_lexes lexemes
  refine ⟨c, hc, fun s => ?_⟩
  rw [holds, hd, j.denote_join, d₁.denote_inside, d₂.denote_inside, hd₁, hd₂]
  rfl

/-- A condition may be negated. -/
theorem compile_opposite (h : compile e₁ = .ok c₁) :
    ∃ c, compile ("!(" ++ e₁ ++ ")") = .ok c ∧ ∀ s, c.holds s = !c₁.holds s := by
  obtain ⟨d, hl, hd⟩ := derivation_of_compile h
  have written : ("!(" ++ e₁ ++ ")").toList = '!' :: '(' :: (e₁.toList ++ [')']) := by simp
  have lexemes : Lexes ("!(" ++ e₁ ++ ")").toList d.opposite.lexemes := by
    rw [written, d.lexemes_opposite]
    exact .next rfl (lex_eq_ok_iff.1 hl).enclosed_end
  obtain ⟨c, hc, hd'⟩ := compile_of_lexes lexemes
  refine ⟨c, hc, fun s => ?_⟩
  rw [holds, holds, hd', hd, d.denote_opposite]
  rfl

/-- Conditions that compile may be joined and negated by their texts. Where the data of the game
is an object, each of the three has the value that the connective gives. -/
theorem compile_composed (h₁ : compile e₁ = .ok c₁) (h₂ : compile e₂ = .ok c₂) :
    ∃ both either opposite,
      compile ("(" ++ e₁ ++ ") && (" ++ e₂ ++ ")") = .ok both ∧
      compile ("(" ++ e₁ ++ ") || (" ++ e₂ ++ ")") = .ok either ∧
      compile ("!(" ++ e₁ ++ ")") = .ok opposite ∧
      ∀ s : Scope, s.game.fields?.isSome →
        ∃ v₁ v₂, c₁.holds? s = .ok v₁ ∧ c₂.holds? s = .ok v₂ ∧
          both.holds? s = .ok (v₁ && v₂) ∧ either.holds? s = .ok (v₁ || v₂) ∧
          opposite.holds? s = .ok !v₁ := by
  obtain ⟨both, hboth, holds_both⟩ := compile_joined .and h₁ h₂
    (show ("(" ++ e₁ ++ ") && (" ++ e₂ ++ ")").toList = _ by
      simp [Joint.written, Joint.symbol, Symbol.text])
  obtain ⟨either, heither, holds_either⟩ := compile_joined .or h₁ h₂
    (show ("(" ++ e₁ ++ ") || (" ++ e₂ ++ ")").toList = _ by
      simp [Joint.written, Joint.symbol, Symbol.text])
  obtain ⟨opposite, hopposite, holds_opposite⟩ := compile_opposite h₁
  refine ⟨both, either, opposite, hboth, heither, hopposite, fun s hs => ?_⟩
  refine ⟨c₁.holds s, c₂.holds s, holds?_of_isSome hs c₁, holds?_of_isSome hs c₂, ?_, ?_, ?_⟩
  · rw [holds?_of_isSome hs, holds_both]
    simp [Joint.test, holds]
  · rw [holds?_of_isSome hs, holds_either]
    simp [Joint.test, holds]
  · rw [holds?_of_isSome hs, holds_opposite]

/-- A quotation may hold a parenthesis, and blanks may stand before the one that is added. -/
theorem compile_composed_rook :
    ∃ c₁ c₂ both either opposite,
      compile "far or it.name == ')'" = .ok c₁ ∧
      compile "it.type == 'pawn' " = .ok c₂ ∧
      compile "(far or it.name == ')') && (it.type == 'pawn' )" = .ok both ∧
      compile "(far or it.name == ')') || (it.type == 'pawn' )" = .ok either ∧
      compile "!(far or it.name == ')')" = .ok opposite ∧
      both.holds? rookScope = .ok false ∧ either.holds? rookScope = .ok true ∧
      opposite.holds? rookScope = .ok false := by
  have h₁ := Result.eq_ok_getD (x := compile "far or it.name == ')'") default (by decide +kernel)
  have h₂ := Result.eq_ok_getD (x := compile "it.type == 'pawn' ") default (by decide +kernel)
  obtain ⟨both, either, opposite, hboth, heither, hopposite, values⟩ := compile_composed h₁ h₂
  obtain ⟨v₁, v₂, hv₁, hv₂, holds_both, holds_either, holds_opposite⟩ := values rookScope rfl
  have true₁ : v₁ = true := by
    rw [holds?_of_isSome rfl] at hv₁
    rw [← Except.ok.inj hv₁]
    decide +kernel
  have false₂ : v₂ = false := by
    rw [holds?_of_isSome rfl] at hv₂
    rw [← Except.ok.inj hv₂]
    decide +kernel
  subst true₁ false₂
  exact ⟨_, _, both, either, opposite, h₁, h₂, hboth, heither, hopposite, holds_both,
    holds_either, holds_opposite⟩

end Composed

end TokenGate.Condition
