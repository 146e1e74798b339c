import TokenGate.Condition.Grammar

/-!
# Derivations of conditions

The grammar of conditions, with a constructor for every way to derive something:

    alternatives = conjunction (("||" | "or") conjunction)*
    conjunction = negation (("&&" | "and") negation)*
    negation = ("!" | "not") negation | comparison
    comparison = primary (("==" | "!=" | "<" | "<=" | ">" | ">=") primary)?
    primary = "(" alternatives ")" | atom

The first two rules are one, with the joint as a parameter. The lexemes of a derivation are found
at its leaves, and they determine it: a lexeme that can follow a phrase is never one that could
continue it.
-/

namespace TokenGate.Condition

/-- The ways to join phrases. -/
inductive Joint where
  | or
  | and

/-- The phrases of the grammar. -/
inductive Phrase where
  | joined (j : Joint)
  | negation
  | comparison
  | primary

/-- The categories of the grammar: the phrases, and the lists of what is joined to a first part. -/
inductive Category where
  | one (p : Phrase)
  | more (j : Joint)

namespace Joint

/-- What is joined: alternatives are joined by `or`, and the parts of an alternative by `and`. -/
def part : Joint → Phrase
  | or => .joined and
  | and => .negation

/-- Whether a lexeme joins phrases in this way. -/
def joins : Joint → Lexeme → Bool
  | or, l => l.isOr
  | and, l => l.isAnd

end Joint

/-- A whole condition. -/
abbrev Category.condition : Category := .one (.joined .or)

/-- The lexemes that are primaries: numbers, quotations, and the names that are no operators. -/
def Lexeme.isAtom : Lexeme → Bool
  | number _ _ => true
  | quotation _ _ => true
  | name text => text ∉ [['o', 'r'], ['a', 'n', 'd'], ['n', 'o', 't']]
  | symbol _ => false

/-- The derivations of a category. -/
inductive Derivation : Category → Type where
  | joined {j : Joint} (first : Derivation (.one j.part)) (rest : Derivation (.more j)) :
      Derivation (.one (.joined j))
  | moreEnd {j : Joint} : Derivation (.more j)
  | moreNext {j : Joint} (l : Lexeme) (h : j.joins l) (next : Derivation (.one j.part))
      (rest : Derivation (.more j)) : Derivation (.more j)
  | negated (l : Lexeme) (h : l.isNot) (part : Derivation (.one .negation)) :
      Derivation (.one .negation)
  | plain (part : Derivation (.one .comparison)) : Derivation (.one .negation)
  | compared (left : Derivation (.one .primary)) (c : Comparison)
      (right : Derivation (.one .primary)) : Derivation (.one .comparison)
  | alone (part : Derivation (.one .primary)) : Derivation (.one .comparison)
  | enclosed (part : Derivation .condition) : Derivation (.one .primary)
  | atom (l : Lexeme) (h : l.isAtom) : Derivation (.one .primary)

/-- The lexemes that a derivation derives, from left to right. -/
def Derivation.lexemes : {k : Category} → Derivation k → List Lexeme
  | _, joined first rest => first.lexemes ++ rest.lexemes
  | _, moreEnd => []
  | _, moreNext l _ next rest => l :: (next.lexemes ++ rest.lexemes)
  | _, negated l _ part => l :: part.lexemes
  | _, plain part => part.lexemes
  | _, compared left c right => left.lexemes ++ .symbol (.compare c) :: right.lexemes
  | _, alone part => part.lexemes
  | _, enclosed part => .symbol .opening :: (part.lexemes ++ [.symbol .closing])
  | _, atom l _ => [l]

/-- Whether a lexeme is the symbol of a comparison. -/
def Lexeme.isComparison : Lexeme → Bool
  | symbol (.compare _) => true
  | _ => false

/-- Whether a lexeme that comes after a phrase could continue it. -/
def Phrase.continuedBy : Phrase → Lexeme → Bool
  | primary, _ => false
  | comparison, l => l.isComparison
  | negation, l => l.isComparison
  | joined .and, l => l.isComparison || l.isAnd
  | joined .or, l => l.isComparison || l.isAnd || l.isOr

/-- A phrase ends where lexemes begin. -/
def Phrase.EndsAt (p : Phrase) (ls : List Lexeme) : Prop :=
  ∀ l ∈ ls.head?, p.continuedBy l = false

/-- What is derived ends where lexemes begin; what is joined ends where the whole does. -/
def Category.EndsAt : Category → List Lexeme → Prop
  | one p, ls => p.EndsAt ls
  | more j, ls => (Phrase.joined j).EndsAt ls

namespace Lexeme

variable {l : Lexeme}

theorem isOr_iff : l.isOr ↔ l = .symbol .or ∨ l = .name ['o', 'r'] := by
  simp [isOr]

theorem isAnd_iff : l.isAnd ↔ l = .symbol .and ∨ l = .name ['a', 'n', 'd'] := by
  simp [isAnd]

theorem isNot_of_isAtom (h : l.isAtom) : l.isNot = false := by
  cases l with
  | number whole fraction => rfl
  | quotation mark body => rfl
  | name text => simp_all [isAtom, isNot]
  | symbol s => cases h

end Lexeme

namespace Phrase

variable {p : Phrase} {j : Joint} {l : Lexeme} {ls : List Lexeme}

@[simp] theorem endsAt_nil : p.EndsAt [] := by
  simp [EndsAt]

@[simp] theorem endsAt_cons : p.EndsAt (l :: ls) ↔ p.continuedBy l = false := by
  simp [EndsAt]

theorem endsAt_primary (ls : List Lexeme) : primary.EndsAt ls := by
  intro l _
  rfl

theorem EndsAt.ne_cons (h : p.EndsAt ls) (hl : p.continuedBy l) (more : List Lexeme) :
    ls ≠ l :: more := by
  rintro rfl
  rw [endsAt_cons, hl] at h
  cases h

theorem continuedBy_of_joins (h : j.joins l) : (joined j).continuedBy l := by
  cases j with
  | or => exact Bool.or_eq_true_iff.2 (.inr h)
  | and => exact Bool.or_eq_true_iff.2 (.inr h)

/-- What joins parts is not taken for something that belongs to the part before it. -/
theorem part_ends_of_joins (h : j.joins l) : j.part.continuedBy l = false := by
  cases j with
  | or => rcases Lexeme.isOr_iff.1 h with rfl | rfl <;> rfl
  | and => rcases Lexeme.isAnd_iff.1 h with rfl | rfl <;> rfl

theorem joins_of_ends (h : (joined j).continuedBy l = false) : j.joins l = false := by
  cases j with
  | or => exact (Bool.or_eq_false_iff.1 h).2
  | and => exact (Bool.or_eq_false_iff.1 h).2

theorem EndsAt.of_joined (h : (joined j).EndsAt ls) : j.part.EndsAt ls := by
  intro l hl
  have hc := h l hl
  cases j with
  | or => exact (Bool.or_eq_false_iff.1 hc).1
  | and => exact (Bool.or_eq_false_iff.1 hc).1

end Phrase

namespace Derivation

variable {k : Category} {j : Joint} {rest : List Lexeme}

theorem endsAt_more (d : Derivation (.more j)) (h : (Phrase.joined j).EndsAt rest) :
    j.part.EndsAt (d.lexemes ++ rest) := by
  cases d with
  | moreEnd => exact h.of_joined
  | moreNext l hl next more => exact Phrase.endsAt_cons.2 (Phrase.part_ends_of_joins hl)

theorem primary_starts (d : Derivation (.one .primary)) :
    ∃ l ls, d.lexemes = l :: ls ∧ l.isNot = false := by
  cases d with
  | enclosed part => exact ⟨_, _, rfl, rfl⟩
  | atom l h => exact ⟨l, [], rfl, Lexeme.isNot_of_isAtom h⟩

theorem comparison_starts (d : Derivation (.one .comparison)) :
    ∃ l ls, d.lexemes = l :: ls ∧ l.isNot = false := by
  cases d with
  | alone part => exact part.primary_starts
  | compared left c right =>
      obtain ⟨l, ls, hl, hn⟩ := left.primary_starts
      exact ⟨l, _, by rw [lexemes, hl, List.cons_append], hn⟩

theorem negation_ne_nil (d : Derivation (.one .negation)) : d.lexemes ≠ [] := by
  cases d with
  | negated l hl part => exact List.cons_ne_nil _ _
  | plain part =>
      obtain ⟨l, ls, hl, -⟩ := part.comparison_starts
      rw [lexemes, hl]
      exact List.cons_ne_nil l ls

theorem joined_ne_nil (d : Derivation (.one (.joined j))) : d.lexemes ≠ [] := by
  have single (d : Derivation (.one (.joined .and))) : d.lexemes ≠ [] := by
    cases d with
    | joined first more => exact fun h => first.negation_ne_nil (List.append_eq_nil_iff.1 h).1
  cases j with
  | and => exact single d
  | or =>
      cases d with
      | joined first more => exact fun h => single first (List.append_eq_nil_iff.1 h).1

/-- Two derivations of the beginnings of the same lexemes are one, if neither can go on. -/
theorem eq_of_append (d : Derivation k) (d' : Derivation k) {rest rest' : List Lexeme}
    (hr : k.EndsAt rest) (hr' : k.EndsAt rest') (h : d.lexemes ++ rest = d'.lexemes ++ rest') :
    d = d' ∧ rest = rest' := by
  induction d generalizing rest rest' with
  | joined first more ihf ihm =>
      cases d' with
      | joined first' more' =>
          simp only [lexemes, List.append_assoc] at h
          obtain ⟨rfl, hm⟩ := ihf first' (more.endsAt_more hr) (more'.endsAt_more hr') h
          obtain ⟨rfl, hrest⟩ := ihm more' hr hr' hm
          exact ⟨rfl, hrest⟩
  | moreEnd =>
      cases d' with
      | moreEnd => exact ⟨rfl, h⟩
      | moreNext l hl next more =>
          exact absurd h (hr.ne_cons (Phrase.continuedBy_of_joins hl) _)
  | moreNext l hl next more ihn ihm =>
      cases d' with
      | moreEnd => exact absurd h.symm (hr'.ne_cons (Phrase.continuedBy_of_joins hl) _)
      | moreNext l' hl' next' more' =>
          simp only [lexemes, List.cons_append, List.append_assoc, List.cons.injEq] at h
          obtain ⟨rfl, h⟩ := h
          obtain ⟨rfl, hm⟩ := ihn next' (more.endsAt_more hr) (more'.endsAt_more hr') h
          obtain ⟨rfl, hrest⟩ := ihm more' hr hr' hm
          exact ⟨rfl, hrest⟩
  | negated l hl part ih =>
      cases d' with
      | negated l' hl' part' =>
          simp only [lexemes, List.cons_append, List.cons.injEq] at h
          obtain ⟨rfl, h⟩ := h
          obtain ⟨rfl, hrest⟩ := ih part' hr hr' h
          exact ⟨rfl, hrest⟩
      | plain part' =>
          obtain ⟨l', ls, hl', hn⟩ := part'.comparison_starts
          simp only [lexemes, hl', List.cons_append, List.cons.injEq] at h
          rw [← h.1, hl] at hn
          cases hn
  | plain part ih =>
      cases d' with
      | negated l hl part' =>
          obtain ⟨l', ls, hl', hn⟩ := part.comparison_starts
          simp only [lexemes, hl', List.cons_append, List.cons.injEq] at h
          rw [h.1, hl] at hn
          cases hn
      | plain part' =>
          obtain ⟨rfl, hrest⟩ := ih part' hr hr' h
          exact ⟨rfl, hrest⟩
  | compared left c right ihl ihr =>
      cases d' with
      | compared left' c' right' =>
          simp only [lexemes, List.append_assoc, List.cons_append] at h
          obtain ⟨rfl, hc⟩ := ihl left' (Phrase.endsAt_primary _) (Phrase.endsAt_primary _) h
          simp only [List.cons.injEq, Lexeme.symbol.injEq, Symbol.compare.injEq] at hc
          obtain ⟨rfl, hc⟩ := hc
          obtain ⟨rfl, hrest⟩ :=
            ihr right' (Phrase.endsAt_primary _) (Phrase.endsAt_primary _) hc
          exact ⟨rfl, hrest⟩
      | alone part =>
          simp only [lexemes, List.append_assoc, List.cons_append] at h
          obtain ⟨-, hrest⟩ := ihl part (Phrase.endsAt_primary _) (Phrase.endsAt_primary _) h
          exact absurd hrest.symm (hr'.ne_cons rfl _)
  | alone part ih =>
      cases d' with
      | compared left c right =>
          simp only [lexemes, List.append_assoc, List.cons_append] at h
          obtain ⟨-, hrest⟩ := ih left (Phrase.endsAt_primary _) (Phrase.endsAt_primary _) h
          exact absurd hrest (hr.ne_cons rfl _)
      | alone part' =>
          obtain ⟨rfl, hrest⟩ := ih part' (Phrase.endsAt_primary _) (Phrase.endsAt_primary _) h
          exact ⟨rfl, hrest⟩
  | enclosed part ih =>
      cases d' with
      | enclosed part' =>
          simp only [lexemes, List.cons_append, List.append_assoc, List.cons.injEq, true_and] at h
          obtain ⟨rfl, hc⟩ := ih part' (Phrase.endsAt_cons.2 rfl) (Phrase.endsAt_cons.2 rfl) h
          exact ⟨rfl, by simpa using hc⟩
      | atom l hl =>
          simp only [lexemes, List.cons_append, List.cons.injEq] at h
          rw [← h.1] at hl
          cases hl
  | atom l hl =>
      cases d' with
      | enclosed part =>
          simp only [lexemes, List.cons_append, List.cons.injEq] at h
          rw [h.1] at hl
          cases hl
      | atom l' hl' =>
          simp only [lexemes, List.cons_append, List.nil_append, List.cons.injEq] at h
          obtain ⟨rfl, hrest⟩ := h
          exact ⟨rfl, hrest⟩

theorem eq_of_lexemes (d d' : Derivation .condition) (h : d.lexemes = d'.lexemes) : d = d' := by
  have happ : d.lexemes ++ [] = d'.lexemes ++ [] := by rw [h]
  exact (d.eq_of_append d' Phrase.endsAt_nil Phrase.endsAt_nil happ).1

end Derivation

end TokenGate.Condition
