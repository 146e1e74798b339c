import TokenGate.Proofs.Condition.Reading

/-!
# What compiles, and what it means

A text compiles if its lexemes are derived from the grammar of conditions. They have one
derivation, and the condition is true wherever this derivation stands for something true.
-/

namespace TokenGate.Condition

theorem derivation_of_compile {text : String} {c : TokenGate.Condition}
    (h : compile text = .ok c) :
    ∃ d : Derivation .condition, lex text = .ok d.lexemes ∧ ∀ s, c.expr.eval s = d.denote s := by
  rw [compile, parse] at h
  cases hl : lex text with
  | error offset =>
      rw [hl] at h
      cases h
  | ok ls =>
      rw [hl] at h
      cases hr : readAll ls with
      | error fault =>
          simp only [hr] at h
          cases h
      | ok e =>
          simp only [hr] at h
          cases h
          obtain ⟨d, rfl, hd⟩ := derivation_of_readAll hr
          exact ⟨d, rfl, hd⟩

theorem compile_of_derivation {text : String} (d : Derivation .condition)
    (h : lex text = .ok d.lexemes) : ∃ c, compile text = .ok c := by
  obtain ⟨e, he⟩ := readAll_lexemes d
  refine ⟨⟨text, e⟩, ?_⟩
  simp only [compile, parse, h, he]

/-- The lexemes of a text have at most one derivation. -/
theorem derivation_unique {text : String} {d d' : Derivation .condition}
    (h : lex text = .ok d.lexemes) (h' : lex text = .ok d'.lexemes) : d' = d := by
  rw [h] at h'
  exact d'.eq_of_lexemes d (Except.ok.inj h').symm

/-- Game data that is an object has a value for every path. -/
theorem holds?_of_isSome {s : Scope} (hs : s.game.fields?.isSome) (c : TokenGate.Condition) :
    c.holds? s = .ok (c.holds s) := by
  rw [holds?, if_neg (by simp [Expr.fails_of_isSome hs])]

/-- A condition holds where the derivation of its text stands for something true. -/
theorem holds?_of_eval {c : TokenGate.Condition} {d : Derivation .condition} {s : Scope}
    (hd : ∀ s, c.expr.eval s = d.denote s) (hs : s.game.fields?.isSome) :
    c.holds? s = .ok ((d.denote s).truth s.attributes) := by
  rw [holds?_of_isSome hs, holds, hd]

/-- A text either compiles or is refused. It compiles if its lexemes have a derivation, which is
then the only one, and the condition holds where this derivation stands for something true, whatever
there is besides data. It is refused if they have none, or if it cannot be split into lexemes. -/
theorem compile_spec (text : String) :
    (∃ c, ∃ d : Derivation .condition, compile text = .ok c ∧ lex text = .ok d.lexemes ∧
      (∀ d' : Derivation .condition, lex text = .ok d'.lexemes → d' = d) ∧
      ∀ s : Scope, s.game.fields?.isSome → c.holds? s = .ok ((d.denote s).truth s.attributes)) ∨
    ∃ e, compile text = .error e ∧ ∀ d : Derivation .condition, lex text ≠ .ok d.lexemes := by
  cases h : compile text with
  | ok c =>
      obtain ⟨d, hl, hd⟩ := derivation_of_compile h
      exact .inl ⟨c, d, rfl, hl, fun d' hd' => derivation_unique hl hd',
        fun s hs => holds?_of_eval hd hs⟩
  | error e =>
      refine .inr ⟨e, rfl, fun d hd => ?_⟩
      obtain ⟨c, hc⟩ := compile_of_derivation d hd
      rw [hc] at h
      cases h

/-- The derivation of `far && !it.type == 'pawn'`, where the comparison is negated and not `it`. -/
def noPawn : Derivation .condition :=
  let isPawn : Derivation (.one .comparison) :=
    .compared (.atom (.name ['i', 't', '.', 't', 'y', 'p', 'e']) rfl) .equal
      (.atom (.quotation Text.singleQuote ['p', 'a', 'w', 'n']) rfl)
  let far : Derivation (.one .negation) := .plain (.alone (.atom (.name ['f', 'a', 'r']) rfl))
  let both : Derivation (.one (.joined .and)) :=
    .joined far (.moreNext (.symbol .and) rfl (.negated (.symbol .not) rfl (.plain isPawn)) .moreEnd)
  .joined both .moreEnd

/-- What is seen of a rook that moves far. -/
def rookScope : Scope :=
  { Scope.empty with
    payload := [("far", .bool true), ("it", .object [("type", .str "rook")])] }

theorem compile_noPawn :
    rookScope.game.fields?.isSome ∧
      ∃ c, compile "far && !it.type == 'pawn'" = .ok c ∧ c.holds? rookScope = .ok true := by
  have hlex : lex "far && !it.type == 'pawn'" = .ok noPawn.lexemes :=
    Result.toOption_eq_some.1 (by decide +kernel)
  have htrue : (noPawn.denote rookScope).truth rookScope.attributes = true := by decide +kernel
  refine ⟨rfl, ?_⟩
  rcases compile_spec "far && !it.type == 'pawn'" with ⟨c, d, hc, -, unique, holds⟩ | ⟨e, -, he⟩
  · refine ⟨c, hc, ?_⟩
    rw [holds rookScope rfl, ← unique noPawn hlex, htrue]
  · exact absurd hlex (he noPawn)

example : (compile "1 < 2 < 3").toOption.isNone = true := by decide +kernel

end TokenGate.Condition
