import TokenGate.Proofs.Condition.Meaning
import TokenGate.Proofs.Result

/-!
# Reading is deriving

The functions that read conditions accept what the grammar derives and nothing else, and the
expressions they make stand for what the derivations do.
-/

namespace TokenGate.Condition

/-- The expression of two joined ones. -/
def Joint.expr : Joint → Expr → Expr → Expr
  | or => .or
  | and => .and

theorem Joint.eval_expr (j : Joint) (s : Scope) (left right : Expr) :
    (j.expr left right).eval s =
      .value (.bool (j.test s.attributes [left.eval s, right.eval s])) := by
  cases j <;> simp [expr, Expr.eval, test]

/-- Reads what a category derives, where `left` is the expression before it. -/
def readAs : Category → Nat → Expr → List Lexeme → Reading
  | .one (.joined .or), fuel, _, ls => readOr fuel ls
  | .one (.joined .and), fuel, _, ls => readAnd fuel ls
  | .one .negation, fuel, _, ls => readNot fuel ls
  | .one .comparison, fuel, _, ls => readComparison fuel ls
  | .one .primary, fuel, _, ls => readPrimary fuel ls
  | .more .or, fuel, left, ls => readMoreOr fuel left ls
  | .more .and, fuel, left, ls => readMoreAnd fuel left ls

section Joined

variable (j : Joint) (fuel : Nat) (left : Expr)

theorem readAs_joined (ls : List Lexeme) :
    readAs (.one (.joined j)) (fuel + 1) left ls =
      readAs (.one j.part) fuel left ls >>= fun r => readAs (.more j) fuel r.1 r.2 := by
  cases j <;> rfl

theorem readAs_more_nil : readAs (.more j) (fuel + 1) left [] = .ok (left, []) := by
  cases j <;> rfl

theorem readAs_more_cons (l : Lexeme) (ls : List Lexeme) :
    readAs (.more j) (fuel + 1) left (l :: ls) =
      if j.joins l then
        readAs (.one j.part) fuel left ls >>= fun r =>
          readAs (.more j) fuel (j.expr left r.1) r.2
      else .ok (left, l :: ls) := by
  cases j <;> rfl

end Joined

/-- In every scope, an expression stands for what a derivation does after the expression `left`. -/
def Derivation.Denotes {k : Category} (d : Derivation k) (left e : Expr) : Prop :=
  ∀ s, e.eval s = k.after s.attributes (left.eval s) (d.denote s)

section Atoms

variable {l : Lexeme} {e : Expr} {text : List Char} {v : Value}

theorem isAtom_of_constant (h : constant? text = some v) : (Lexeme.name text).isAtom := by
  have hn : text ∉ [['o', 'r'], ['a', 'n', 'd'], ['n', 'o', 't']] := by
    intro hm
    simp only [List.mem_cons, List.not_mem_nil, or_false] at hm
    rcases hm with rfl | rfl | rfl <;> cases h
  simpa [Lexeme.isAtom] using hn

theorem isAtom_name : (Lexeme.name text).isAtom ↔
    ((Lexeme.name text).isOr || (Lexeme.name text).isAnd || (Lexeme.name text).isNot) = false := by
  simp [Lexeme.isAtom, Lexeme.isOr, Lexeme.isAnd, Lexeme.isNot, and_assoc]

theorem denotes_of_atom (h : atom l = .ok e) : ∃ ha : l.isAtom, ∀ s, e.eval s = l.denote s ha := by
  cases l with
  | number whole fraction =>
      cases h
      exact ⟨rfl, fun s => rfl⟩
  | quotation mark body =>
      cases h
      exact ⟨rfl, fun s => rfl⟩
  | symbol s => cases h
  | name text =>
      simp only [atom] at h
      cases hc : constant? text with
      | some v =>
          rw [hc] at h
          cases h
          refine ⟨isAtom_of_constant hc, fun s => ?_⟩
          simp only [Lexeme.denote, hc, Expr.eval]
      | none =>
          rw [hc] at h
          simp only at h
          split at h
          · cases h
          · rename_i hop
            cases h
            refine ⟨isAtom_name.2 (by simpa using hop), fun s => ?_⟩
            simp only [Lexeme.denote, hc, Expr.eval]

theorem atom_of_isAtom (h : l.isAtom) : ∃ e, atom l = .ok e := by
  cases l with
  | number whole fraction => exact ⟨_, rfl⟩
  | quotation mark body => exact ⟨_, rfl⟩
  | symbol s => cases h
  | name text =>
      simp only [atom]
      cases constant? text with
      | some v => exact ⟨_, rfl⟩
      | none =>
          rw [isAtom_name.1 h]
          exact ⟨_, rfl⟩

end Atoms

/-- Whatever is read with some fuel is derived, up to the lexemes that are left. -/
def Sound (fuel : Nat) : Prop :=
  ∀ (k : Category) (left e : Expr) (ls rest : List Lexeme),
    readAs k fuel left ls = .ok (e, rest) →
      ∃ d : Derivation k, d.lexemes ++ rest = ls ∧ d.Denotes left e

namespace Sound

variable {fuel : Nat} {left e : Expr} {ls rest : List Lexeme}

theorem joined (hs : Sound fuel) {j : Joint}
    (h : readAs (.one (.joined j)) (fuel + 1) left ls = .ok (e, rest)) :
    ∃ d : Derivation (.one (.joined j)), d.lexemes ++ rest = ls ∧ d.Denotes left e := by
  rw [readAs_joined] at h
  obtain ⟨⟨first, after⟩, hf, hm⟩ := Result.bind_eq_ok.1 h
  obtain ⟨df, rfl, hdf⟩ := hs (.one j.part) left first ls after hf
  obtain ⟨dm, rfl, hdm⟩ := hs (.more j) first e after rest hm
  refine ⟨.joined df dm, List.append_assoc .., fun s => ?_⟩
  rw [hdm s, hdf s]
  rfl

theorem more (hs : Sound fuel) {j : Joint}
    (h : readAs (.more j) (fuel + 1) left ls = .ok (e, rest)) :
    ∃ d : Derivation (.more j), d.lexemes ++ rest = ls ∧ d.Denotes left e := by
  cases ls with
  | nil =>
      rw [readAs_more_nil] at h
      cases h
      exact ⟨.moreEnd, rfl, fun s => rfl⟩
  | cons l ls =>
      rw [readAs_more_cons] at h
      by_cases hj : j.joins l
      · rw [if_pos hj] at h
        obtain ⟨⟨next, after⟩, hn, hm⟩ := Result.bind_eq_ok.1 h
        obtain ⟨dn, rfl, hdn⟩ := hs (.one j.part) left next ls after hn
        obtain ⟨dm, rfl, hdm⟩ := hs (.more j) (j.expr left next) e after rest hm
        refine ⟨.moreNext l hj dn dm, by simp [Derivation.lexemes], fun s => ?_⟩
        rw [hdm s, j.eval_expr, hdn s]
        exact j.whole_cons ..
      · rw [if_neg hj] at h
        cases h
        exact ⟨.moreEnd, rfl, fun s => rfl⟩

theorem negation (hs : Sound fuel) (h : readNot (fuel + 1) ls = .ok (e, rest)) :
    ∃ d : Derivation (.one .negation), d.lexemes ++ rest = ls ∧ d.Denotes left e := by
  have plain : readComparison fuel ls = .ok (e, rest) →
      ∃ d : Derivation (.one .negation), d.lexemes ++ rest = ls ∧ d.Denotes left e := by
    intro hc
    obtain ⟨dc, hl, hdc⟩ := hs (.one .comparison) left e ls rest hc
    exact ⟨.plain dc, hl, hdc⟩
  cases ls with
  | nil => exact plain h
  | cons l ls =>
      rw [readNot] at h
      by_cases hn : l.isNot
      · rw [if_pos hn] at h
        obtain ⟨⟨part, after⟩, hp, hr⟩ := Result.bind_eq_ok.1 h
        cases hr
        obtain ⟨dp, rfl, hdp⟩ := hs (.one .negation) left part ls rest hp
        refine ⟨.negated l hn dp, rfl, fun s => ?_⟩
        rw [Expr.eval, hdp s]
        rfl
      · rw [if_neg hn] at h
        exact plain h

theorem comparison (hs : Sound fuel) (h : readComparison (fuel + 1) ls = .ok (e, rest)) :
    ∃ d : Derivation (.one .comparison), d.lexemes ++ rest = ls ∧ d.Denotes left e := by
  rw [readComparison] at h
  obtain ⟨⟨first, after⟩, hf, hm⟩ := Result.bind_eq_ok.1 h
  obtain ⟨df, rfl, hdf⟩ := hs (.one .primary) left first ls after hf
  split at hm
  · rename_i left' c more heq
    cases heq
    obtain ⟨⟨right, after⟩, hr, hd⟩ := Result.bind_eq_ok.1 hm
    cases hd
    obtain ⟨dr, rfl, hdr⟩ := hs (.one .primary) left right more rest hr
    refine ⟨.compared df c dr, by simp [Derivation.lexemes], fun s => ?_⟩
    rw [Expr.eval, hdf s, hdr s, Comparison.holds_eq]
    rfl
  · cases hm
    exact ⟨.alone df, rfl, hdf⟩

theorem primary (hs : Sound fuel) (h : readPrimary (fuel + 1) ls = .ok (e, rest)) :
    ∃ d : Derivation (.one .primary), d.lexemes ++ rest = ls ∧ d.Denotes left e := by
  rw [readPrimary.eq_def] at h
  split at h
  · cases h
  · cases h
  · rename_i more heq
    cases heq
    obtain ⟨⟨part, after⟩, hp, hc⟩ := Result.bind_eq_ok.1 h
    obtain ⟨dp, rfl, hdp⟩ := hs .condition left part more after hp
    split at hc
    · rename_i ls' heq
      cases heq
      cases hc
      exact ⟨.enclosed dp, by simp [Derivation.lexemes], hdp⟩
    · cases hc
  · rename_i l more hopen heq
    obtain ⟨e', ha, hr⟩ := Result.bind_eq_ok.1 h
    cases hr
    obtain ⟨hl, hd⟩ := denotes_of_atom ha
    exact ⟨.atom l hl, rfl, hd⟩

end Sound

theorem sound (fuel : Nat) : Sound fuel := by
  induction fuel with
  | zero =>
      intro k left e ls rest h
      rcases k with (⟨_ | _⟩ | _ | _ | _) | (_ | _) <;> cases h
  | succ fuel ih =>
      intro k left e ls rest h
      cases k with
      | more j => exact ih.more h
      | one p =>
          cases p with
          | joined j => exact ih.joined h
          | negation => exact ih.negation h
          | comparison => exact ih.comparison h
          | primary => exact ih.primary h

/-- How far the reading of a category may go deeper than six calls a lexeme. -/
def Category.excess : Category → Nat
  | one (.joined .or) => 4
  | one (.joined .and) => 3
  | one .negation => 2
  | one .comparison => 1
  | one .primary => 0
  | more _ => 1

namespace Derivation

variable {k : Category} {fuel : Nat} {rest : List Lexeme}

/-- The depth of the calls that read a derivation. -/
def depth : {k : Category} → Derivation k → Nat
  | _, joined first more => max first.depth more.depth + 1
  | _, moreEnd => 1
  | _, moreNext _ _ next more => max next.depth more.depth + 1
  | _, negated _ _ part => part.depth + 1
  | _, plain part => part.depth + 1
  | _, compared left _ right => max left.depth right.depth + 1
  | _, alone part => part.depth + 1
  | _, enclosed part => part.depth + 1
  | _, atom _ _ => 1

theorem fuel_of_depth (d : Derivation k) (h : d.depth ≤ fuel) : ∃ n, fuel = n + 1 := by
  have hpos : 0 < d.depth := by
    cases d <;> simp [depth]
  exact ⟨fuel - 1, by omega⟩

theorem depth_le (d : Derivation k) : d.depth ≤ 6 * d.lexemes.length + k.excess := by
  induction d with
  | @joined j first more ihf ihm =>
      cases j <;> simp only [depth, lexemes, List.length_append, Category.excess, Joint.part] at *
      · omega
      · omega
  | moreEnd => simp [depth, Category.excess]
  | @moreNext j l hl next more ihn ihm =>
      cases j <;> simp only [depth, lexemes, List.length_append, List.length_cons,
        Category.excess, Joint.part] at *
      · omega
      · omega
  | negated l hl part ih =>
      simp only [depth, lexemes, List.length_cons, Category.excess] at *
      omega
  | plain part ih =>
      simp only [depth, lexemes, Category.excess] at *
      omega
  | compared left c right ihl ihr =>
      simp only [depth, lexemes, List.length_append, List.length_cons, Category.excess] at *
      omega
  | alone part ih =>
      simp only [depth, lexemes, Category.excess] at *
      omega
  | enclosed part ih =>
      simp only [depth, lexemes, List.length_append, List.length_cons, List.length_nil,
        Category.excess] at *
      omega
  | atom l h => simp [depth, lexemes, Category.excess]

/-- With enough fuel a phrase is read as far as its derivation goes, if it ends there. -/
theorem read (d : Derivation k) (left : Expr) (hf : d.depth ≤ fuel) (hr : k.EndsAt rest) :
    ∃ e, readAs k fuel left (d.lexemes ++ rest) = .ok (e, rest) := by
  induction d generalizing fuel left rest with
  | joined first more ihf ihm =>
      obtain ⟨n, rfl⟩ := fuel_of_depth _ hf
      simp only [depth, Nat.add_le_add_iff_right, Nat.max_le] at hf
      obtain ⟨e₁, h₁⟩ := ihf left hf.1 (more.endsAt_more hr)
      obtain ⟨e₂, h₂⟩ := ihm e₁ hf.2 hr
      refine ⟨e₂, ?_⟩
      rw [lexemes, List.append_assoc, readAs_joined]
      exact Result.bind_eq_ok.2 ⟨_, h₁, h₂⟩
  | moreEnd =>
      obtain ⟨n, rfl⟩ := fuel_of_depth _ hf
      refine ⟨left, ?_⟩
      cases rest with
      | nil => exact readAs_more_nil ..
      | cons l ls =>
          have hl := Phrase.joins_of_ends (hr l rfl)
          rw [lexemes, List.nil_append, readAs_more_cons, hl, if_neg Bool.false_ne_true]
  | @moreNext j l hl next more ihn ihm =>
      obtain ⟨n, rfl⟩ := fuel_of_depth _ hf
      simp only [depth, Nat.add_le_add_iff_right, Nat.max_le] at hf
      obtain ⟨e₁, h₁⟩ := ihn left hf.1 (more.endsAt_more hr)
      obtain ⟨e₂, h₂⟩ := ihm (j.expr left e₁) hf.2 hr
      refine ⟨e₂, ?_⟩
      rw [lexemes, List.cons_append, List.append_assoc, readAs_more_cons, if_pos hl]
      exact Result.bind_eq_ok.2 ⟨_, h₁, h₂⟩
  | negated l hl part ih =>
      obtain ⟨n, rfl⟩ := fuel_of_depth _ hf
      simp only [depth, Nat.add_le_add_iff_right] at hf
      obtain ⟨e, h⟩ := ih left hf hr
      refine ⟨.not e, ?_⟩
      rw [lexemes, List.cons_append, readAs, readNot, if_pos hl]
      exact Result.bind_eq_ok.2 ⟨_, h, rfl⟩
  | plain part ih =>
      obtain ⟨n, rfl⟩ := fuel_of_depth _ hf
      simp only [depth, Nat.add_le_add_iff_right] at hf
      obtain ⟨e, h⟩ := ih left hf hr
      obtain ⟨l, ls, hl, hn⟩ := part.comparison_starts
      refine ⟨e, ?_⟩
      rw [hl, List.cons_append] at h
      rw [lexemes, hl, List.cons_append, readAs, readNot, hn, if_neg Bool.false_ne_true]
      exact h
  | compared l c r ihl ihr =>
      obtain ⟨n, rfl⟩ := fuel_of_depth _ hf
      simp only [depth, Nat.add_le_add_iff_right, Nat.max_le] at hf
      obtain ⟨e₁, h₁⟩ := ihl left hf.1 (Phrase.endsAt_primary _)
      obtain ⟨e₂, h₂⟩ := ihr left hf.2 (Phrase.endsAt_primary rest)
      refine ⟨.compare c e₁ e₂, ?_⟩
      rw [lexemes, List.append_assoc, readAs, readComparison]
      refine Result.bind_eq_ok.2 ⟨_, h₁, ?_⟩
      exact Result.bind_eq_ok.2 ⟨_, h₂, rfl⟩
  | alone part ih =>
      obtain ⟨n, rfl⟩ := fuel_of_depth _ hf
      simp only [depth, Nat.add_le_add_iff_right] at hf
      obtain ⟨e, h⟩ := ih left hf (Phrase.endsAt_primary rest)
      refine ⟨e, ?_⟩
      rw [lexemes, readAs, readComparison]
      refine Result.bind_eq_ok.2 ⟨_, h, ?_⟩
      split
      · rename_i left' c more heq
        cases heq
        cases hr _ rfl
      · rfl
  | enclosed part ih =>
      obtain ⟨n, rfl⟩ := fuel_of_depth _ hf
      simp only [depth, Nat.add_le_add_iff_right] at hf
      have closed : Category.condition.EndsAt (.symbol .closing :: rest) :=
        Phrase.endsAt_cons.2 rfl
      obtain ⟨e, h⟩ := ih left hf closed
      refine ⟨e, ?_⟩
      rw [lexemes, List.cons_append, List.append_assoc, readAs, readPrimary]
      exact Result.bind_eq_ok.2 ⟨_, h, rfl⟩
  | atom l hl =>
      obtain ⟨n, rfl⟩ := fuel_of_depth _ hf
      obtain ⟨e, h⟩ := atom_of_isAtom hl
      refine ⟨e, ?_⟩
      have hopen : l = .symbol .opening → False := by
        rintro rfl
        cases hl
      rw [lexemes, List.cons_append, readAs, readPrimary]
      · exact Result.bind_eq_ok.2 ⟨_, h, rfl⟩
      · exact hopen

end Derivation

theorem derivation_of_readAll {ls : List Lexeme} {e : Expr} (h : readAll ls = .ok e) :
    ∃ d : Derivation .condition, d.lexemes = ls ∧ ∀ s, e.eval s = d.denote s := by
  rw [readAll] at h
  split at h
  · cases h
  · obtain ⟨⟨e', rest⟩, hr, hend⟩ := Result.bind_eq_ok.1 h
    obtain ⟨d, hl, hd⟩ := sound (enoughFuel ls.length) .condition e' e' ls rest hr
    cases rest with
    | nil =>
        cases hend
        exact ⟨d, by rw [← hl, List.append_nil], hd⟩
    | cons l more => cases hend

theorem readAll_lexemes (d : Derivation .condition) : ∃ e, readAll d.lexemes = .ok e := by
  have hfuel : d.depth ≤ enoughFuel d.lexemes.length := by
    have hd := d.depth_le
    simp only [enoughFuel, Category.excess] at hd ⊢
    omega
  obtain ⟨e, he⟩ := d.read default hfuel Phrase.endsAt_nil
  rw [List.append_nil] at he
  refine ⟨e, ?_⟩
  rw [readAll, if_neg (by simpa using d.joined_ne_nil)]
  exact Result.bind_eq_ok.2 ⟨_, he, rfl⟩

end TokenGate.Condition
