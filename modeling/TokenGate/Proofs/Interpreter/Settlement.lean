import TokenGate.Interpreter
import TokenGate.Proofs.Interpreter.Steps

/-!
# How rules are settled

Handling a rule settles its tokens: a trigger grants them, an action pays them if it can, a
constraint takes them as its bypass cost. Everything else that happens meanwhile is up to the
surroundings. There are two permits: one for effects, and one below it for those who watch or
judge. Only actions apply effects, so that nothing but the lesser permit is used by other rules.
-/

namespace TokenGate

open Act

variable {σ : Type} {p q : Permit}

/-- What the handling of a rule comes to: with which outcome it leads from one session to
another. -/
inductive Rule.Settles (p q : Permit) (s : Session σ) :
    Rule → Except Fault (Except Fault Progress) → Session σ → Prop where
  | granted {t : Trigger} {s' : Session σ}
      (after : (s.withLedger (s.current.ledger.grantBag t.grants)).Passes q s') :
      Settles p q s (.trigger t) (.ok (.ok .none)) s'
  | paid {a : Action} {l : Ledger} {g : Progress} {s' : Session σ}
      (charge : s.current.ledger.pay a.costs = .ok l) (after : (s.withLedger l).Passes p s')
      (costPaid : g.costPaid = some true) (verdict : g.verdict = none) :
      Settles p q s (.action a) (.ok (.ok g)) s'
  | unpaid {a : Action} {g : Progress} {s' : Session σ} (after : s.Passes p s')
      (costPaid : g.costPaid = some false) (verdict : g.verdict = none) :
      Settles p q s (.action a) (.ok (.ok g)) s'
  | passed {c : Constraint} {s' : Session σ} (after : s.Passes q s') :
      Settles p q s (.constraint c) (.ok (.ok { Progress.none with verdict := some .passed })) s'
  | bypassed {c : Constraint} {l : Ledger} {judged s' : Session σ} (before : s.Passes q judged)
      (charge : judged.current.ledger.pay c.bypass = .ok l)
      (after : (judged.withLedger l).Passes q s') :
      Settles p q s (.constraint c)
        (.ok (.ok { Progress.none with verdict := some .bypassed })) s'
  | blocked {c : Constraint} {f : Fault} {s' : Session σ} (after : s.Passes q s') :
      Settles p q s (.constraint c) (.ok (.error f)) s'
  /-- A predicate fails, or a token of the rule has no entry to pay from. -/
  | failed {r : Rule} {f : Fault} {s' : Session σ} (after : s.Passes q s')
      (reason : q.fails f ∨ ∃ t ∈ r.tokens.types, s'.current.ledger.balances.get? t = none) :
      Settles p q s r (.error f) s'

namespace Interpreter

variable (i : Interpreter σ)

theorem triggerChain_ensures (noStart : ¬ q.starts) (hw : i.surroundings.Watching q.calm)
    (t : Trigger) (e : Event) {s : Session σ} (hs : s.Running) :
    (i.runChain (.rule (.trigger t)) e (Step.chain .trigger)).Ensures ⟨s, .none⟩ fun o h' =>
      o = .ok () ∧ h'.progress = .none ∧
        (s.withLedger (s.current.ledger.grantBag t.grants)).Passes q h'.session := by
  have granted : s.modifyCurrent (fun c => { c with ledger := c.ledger.grantBag t.grants }) =
      s.withLedger (s.current.ledger.grantBag t.grants) := hs.modifyCurrent_eq rfl
  refine ensures_change_bind (Ensures.bind (i.logRule_ensures (p := q.calm) noStart hw e _ _
    (hs.modifyCurrent _)) ?_ ?_)
  · intro _ h' hlog
    exact ⟨rfl, hlog.2.1, granted ▸ hlog.1.of_calm⟩
  · intro f h' hlog
    exact (hlog.2.2 f rfl).elim

theorem actionChain_ensures (k : i.surroundings.KeepTo p q) (a : Action) (e : Event)
    {s : Session σ} (hs : s.Running) :
    (i.runChain (.rule (.action a)) e (Step.chain .action)).Ensures ⟨s, .none⟩ fun o h' =>
      (∃ l, s.current.ledger.pay a.costs = .ok l ∧ o = .ok () ∧
        (s.withLedger l).Passes p h'.session ∧ h'.progress.costPaid = some true ∧
        h'.progress.verdict = none) ∨
      (o = .ok () ∧ s.Passes p h'.session ∧ h'.progress.costPaid = some false ∧
        h'.progress.verdict = none) ∨
      (∃ t ∈ a.costs.types, h'.session.current.ledger.balances.get? t = none ∧
        o = .error (.ledger (.noEntry t)) ∧ s.Passes q h'.session) := by
  -- The steps after the payment neither fail nor touch what it has come to.
  have rest {h : Handling σ} (hh : h.session.Running) :
      (i.effectStep a e >>= fun _ => i.runChain (.rule (.action a)) e [.logAction]).Ensures h
        fun o h' => o = .ok () ∧ h.Passes p h' := by
    refine Ensures.bind (i.effectStep_ensures k.noStart k.acting k.data k.applied a e hh) ?_ (by simp)
    rintro _ h₁ ⟨-, effect⟩
    refine Ensures.bind (ensures_get_bind (i.logRule_ensures (p := q.calm) k.noStart' k.watching e _ _
      effect.session.running)) ?_ ?_
    · rintro _ h' ⟨logged, same, -⟩
      exact ⟨rfl, effect.trans ⟨logged.of_calm.weaken k.below, congrArg _ same, congrArg _ same⟩⟩
    · rintro f h' ⟨-, -, hf⟩
      exact (hf f rfl).elim
  refine Ensures.bind (i.payStep_ensures (p := p) a hs) ?_ ?_
  · rintro _ h₁ (⟨l, hp, -, rfl⟩ | ⟨-, unpaid, hg⟩ | ⟨t, -, -, ho, -⟩)
    · refine (rest (hs.modifyCurrent _)).mono ?_
      rintro o h' ⟨ho, hpass⟩
      exact .inl ⟨l, hp, ho, hpass.session, hpass.costPaid, hpass.verdict⟩
    · refine (rest unpaid.running).mono ?_
      rintro o h' ⟨ho, hpass⟩
      refine .inr (.inl ⟨ho, unpaid.trans hpass.session, ?_, ?_⟩)
      · rw [hpass.costPaid, hg]
      · rw [hpass.verdict, hg]
        rfl
    · cases ho
  · rintro f h₁ (⟨l, -, ho, -⟩ | ⟨ho, -⟩ | ⟨t, ht, hget, ho, rfl⟩)
    · cases ho
    · cases ho
    · exact .inr (.inr ⟨t, ht, hget, ho, .refl hs⟩)

theorem constraintChain_ensures (k : i.surroundings.KeepTo p q) (c : Constraint) (e : Event)
    {s : Session σ} (hs : s.Running) :
    (i.runChain (.rule (.constraint c)) e (Step.chain .constraint)).Ensures ⟨s, .none⟩ fun o h' =>
      (o = .ok () ∧ s.Passes q h'.session ∧
        h'.progress = { Progress.none with verdict := some .passed }) ∨
      (∃ judged l, s.Passes q judged ∧ judged.current.ledger.pay c.bypass = .ok l ∧ o = .ok () ∧
        (judged.withLedger l).Passes q h'.session ∧
        h'.progress = { Progress.none with verdict := some .bypassed }) ∨
      (o = .error (.blocked c.name c.message) ∧ s.Passes q h'.session) ∨
      (∃ f, o = .error f ∧ s.Passes q h'.session ∧
        (q.fails f ∨ ∃ t ∈ c.bypass.types, h'.session.current.ledger.balances.get? t = none)) := by
  have rest {h : Handling σ} (hh : h.session.Running) :
      (i.runChain (.rule (.constraint c)) e [.logConstraint]).Ensures h fun o h' =>
        o = .ok () ∧ h.session.Passes q h'.session ∧ h'.progress = h.progress := by
    refine Ensures.bind (ensures_get_bind
      (i.logRule_ensures (p := q.calm) k.noStart' k.watching e _ _ hh)) ?_ ?_
    · rintro _ h' ⟨logged, same, -⟩
      exact ⟨rfl, logged.of_calm, same⟩
    · rintro f h' ⟨-, -, hf⟩
      exact (hf f rfl).elim
  refine Ensures.bind (i.checkStep_ensures k.noStart' k.watching k.judging c e hs) ?_ ?_
  · rintro _ h₁ (⟨-, checked, hg⟩ | ⟨judged, l, before, hp, -, rfl⟩ | ⟨ho, -⟩ | ⟨f, ho, -⟩)
    · refine (rest checked.running).mono ?_
      rintro o h' ⟨ho, hpass, same⟩
      exact .inl ⟨ho, checked.trans hpass, same.trans hg⟩
    · refine (rest (before.running.modifyCurrent _)).mono ?_
      rintro o h' ⟨ho, hpass, same⟩
      exact .inr (.inl ⟨judged, l, before, hp, ho, hpass, same⟩)
    · cases ho
    · cases ho
  · rintro f h₁ (⟨ho, -⟩ | ⟨-, -, -, -, ho, -⟩ | hblocked | hfailed)
    · cases ho
    · cases ho
    · exact .inr (.inr (.inl hblocked))
    · exact .inr (.inr (.inr hfailed))

/-- Handling the rule of an edge ensures what its steps ensure; a verdict that blocks is an
answer. -/
theorem handle_ensures {edge : Edge} {entry : CatalogEntry} (hedge : edge.entry? = some entry)
    {e : Event} {s : Session σ} {R : Except Fault Unit → Handling σ → Prop}
    {Q : Except Fault (Except Fault Progress) → Session σ → Prop}
    (chain : (i.runChain (.rule entry.rule) e entry.steps).Ensures ⟨s, .none⟩ R)
    (hok : ∀ h', R (.ok ()) h' → Q (.ok (.ok h'.progress)) h'.session)
    (hblocked : ∀ c m h', R (.error (.blocked c m)) h' → Q (.ok (.error (.blocked c m))) h'.session)
    (herror : ∀ f h', (∀ c m, f ≠ .blocked c m) → R (.error f) h' → Q (.error f) h'.session) :
    (i.handle edge e).Ensures s Q := by
  simp only [Ensures, handle, hedge] at chain ⊢
  generalize i.runChain (.rule entry.rule) e entry.steps ⟨s, .none⟩ = x at chain
  obtain ⟨o, h'⟩ := x
  cases o with
  | ok _ => exact hok h' chain
  | error f =>
    cases f with
    | blocked c m => exact hblocked c m h' chain
    | _ =>
      refine herror _ h' ?_ chain
      rintro c m h
      cases h

/-- Handling a trigger grants its tokens. -/
theorem handle_trigger (noStart : ¬ q.starts) (hw : i.surroundings.Watching q.calm) {edge : Edge}
    {label : String} {t : Trigger} (hedge : edge.entry? = some ⟨label, .trigger t⟩) (e : Event)
    {s : Session σ} (hs : s.Running) :
    (i.handle edge e).Ensures s fun o s' => o = .ok (.ok .none) ∧
      (s.withLedger (s.current.ledger.grantBag t.grants)).Passes q s' := by
  refine i.handle_ensures hedge (i.triggerChain_ensures noStart hw t e hs) ?_ ?_ ?_
  · rintro h' ⟨-, hg, after⟩
    exact ⟨by rw [hg], after⟩
  · rintro c m h' ⟨ho, -⟩
    cases ho
  · rintro f h' - ⟨ho, -⟩
    cases ho

/-- Handling the rule of an edge settles it. -/
theorem handle_settles (k : i.surroundings.KeepTo p q) {edge : Edge} {entry : CatalogEntry}
    (hedge : edge.entry? = some entry) (e : Event) {s : Session σ} (hs : s.Running) :
    (i.handle edge e).Ensures s (Rule.Settles p q s entry.rule) := by
  obtain ⟨label, rule⟩ := entry
  cases rule with
  | trigger t =>
    refine (i.handle_trigger k.noStart' k.watching hedge e hs).mono ?_
    rintro _ s' ⟨rfl, after⟩
    exact .granted after
  | action a =>
    refine i.handle_ensures hedge (i.actionChain_ensures k a e hs)
      ?_ ?_ ?_
    · rintro h' (⟨l, hp, -, after, cost, verdict⟩ | ⟨-, after, cost, verdict⟩ |
        ⟨t, -, -, ho, -⟩)
      · exact .paid hp after cost verdict
      · exact .unpaid after cost verdict
      · cases ho
    · rintro c m h' (⟨l, -, ho, -⟩ | ⟨ho, -⟩ | ⟨t, -, -, ho, -⟩) <;> cases ho
    · rintro f h' - (⟨l, -, ho, -⟩ | ⟨ho, -⟩ | ⟨t, ht, hget, ho, after⟩)
      · cases ho
      · cases ho
      · exact .failed after (.inr ⟨t, ht, hget⟩)
  | constraint c =>
    refine i.handle_ensures hedge (i.constraintChain_ensures k c e hs) ?_ ?_ ?_
    · rintro h' (⟨-, after, hg⟩ | ⟨judged, l, before, hp, -, after, hg⟩ | ⟨ho, -⟩ | ⟨f, ho, -⟩)
      · rw [hg]
        exact .passed after
      · rw [hg]
        exact .bypassed before hp after
      · cases ho
      · cases ho
    · rintro n m h' (⟨ho, -⟩ | ⟨-, -, -, -, ho, -⟩ | ⟨-, after⟩ | ⟨f, -, after, -⟩)
      · cases ho
      · cases ho
      · exact .blocked after
      · exact .blocked after
    · rintro f h' unblocked (⟨ho, -⟩ | ⟨-, -, -, -, ho, -⟩ | ⟨ho, -⟩ | ⟨f', ho, after, reason⟩)
      · cases ho
      · cases ho
      · cases ho
        exact absurd rfl (unblocked _ _)
      · cases ho
        exact .failed after reason

end Interpreter
end TokenGate
