import TokenGate.Proofs.Effect
import TokenGate.Proofs.Ledger.Payment
import TokenGate.Proofs.Play.Permit

/-!
# What the steps of a rule do

Every step of a rule is described once. Whatever is left to the surroundings passes from one
session to another as they are permitted to; what a step does on its own account, to the ledger
and to the progress, is said exactly.
-/

namespace TokenGate

open Act Handling

variable {σ α : Type} {p : Permit}

/-- A session with another ledger. -/
def Session.withLedger (s : Session σ) (l : Ledger) : Session σ :=
  s.modifyCurrent fun c => { c with ledger := l }

/-- A session that an activity leads to as permitted, unless it is given up otherwise. -/
def Session.Permitted (p : Permit) (s : Session σ) (o : Except Fault α) (s' : Session σ) : Prop :=
  s.Passes p s' ∧ ∀ f, o = .error f → p.fails f

theorem Session.Passes.andThen {s s' : Session σ} {x : Act (Session σ) α} (h : s.Passes p s')
    (hx : x.Ensures s' (s'.Permitted p)) : x.Ensures s' (s.Permitted p) :=
  hx.mono fun _ _ hp => ⟨h.trans hp.1, hp.2⟩

theorem Session.Passes.of_calm {s s' : Session σ} (h : s.Passes p.calm s') : s.Passes p s' :=
  ⟨h.running, h.changes, h.queue⟩

/-- The handling of a rule goes on as permitted, and neither the cost nor the constraint is
settled meanwhile. -/
structure Handling.Passes (p : Permit) (h h' : Handling σ) : Prop where
  session : h.session.Passes p h'.session
  costPaid : h'.progress.costPaid = h.progress.costPaid
  verdict : h'.progress.verdict = h.progress.verdict

theorem Handling.Passes.trans {h h' h'' : Handling σ} (h₁ : h.Passes p h') (h₂ : h'.Passes p h'') :
    h.Passes p h'' :=
  ⟨h₁.session.trans h₂.session, h₂.costPaid.trans h₁.costPaid, h₂.verdict.trans h₁.verdict⟩

namespace Interpreter

variable (i : Interpreter σ)

theorem passes_report {s : Session σ} (h : s.Running) (logger : String) (level : Level)
    (message : String) : s.Passes p (i.report logger level message s) :=
  Session.passes_of_eq h rfl rfl rfl rfl

theorem perform_ensures (noStart : ¬ p.starts) {x : Play σ α} (hx : x.Within p) {s : Session σ}
    (hs : s.Running) {hold : Hold} (hh : hold = .current ∨ hold = .live) :
    (i.perform hold x).Ensures s (s.Permitted p) :=
  Ensures.on ((i.make_ensures noStart hx (g := ⟨s, hold⟩) ⟨hs, hh⟩).mono
    fun _ _ h => ⟨h.1.session, h.2⟩)

theorem performAll_ensures (noStart : ¬ p.starts) {play : String → Play σ Unit}
    (hplay : ∀ name, (play name).Within p) (names : List String) {s : Session σ}
    (hs : s.Running) : (i.performAll play names).Ensures s (s.Permitted p) := by
  induction names generalizing s with
  | nil => exact ⟨.refl hs, nofun⟩
  | cons name rest ih =>
    refine Ensures.bind (i.perform_ensures noStart (hplay name) hs (.inr rfl)) ?_ ?_
    · intro _ s' h
      exact h.1.andThen (ih h.1.running)
    · intro f s' h
      exact ⟨h.1, fun f' hf => by cases hf; exact h.2 f rfl⟩

/-- Those who watch do no more than they are permitted to when they are told of a transition. -/
theorem notify_ensures (noStart : ¬ p.starts) (hw : i.surroundings.Watching p) (n : Notice)
    {s : Session σ} (hs : s.Running) : (i.notify n).Ensures s (s.Permitted p) := by
  refine Ensures.bind (i.perform_ensures noStart (hw.onTransition n) hs (.inr rfl)) ?_ ?_
  · intro _ s' h
    exact ensures_get_bind (h.1.andThen
      (i.performAll_ensures noStart (fun name => hw.transitionWatcher name n) _ h.1.running))
  · intro f s' h
    exact ⟨h.1, fun f' hf => by cases hf; exact h.2 f rfl⟩

theorem notifyLog_ensures (noStart : ¬ p.starts) (hw : i.surroundings.Watching p) (l : RuleLog)
    {s : Session σ} (hs : s.Running) : (i.notifyLog l).Ensures s (s.Permitted p) := by
  refine Ensures.bind (i.perform_ensures noStart (hw.onRuleLog l) hs (.inr rfl)) ?_ ?_
  · intro _ s' h
    exact ensures_get_bind (h.1.andThen
      (i.performAll_ensures noStart (fun name => hw.logWatcher name l) _ h.1.running))
  · intro f s' h
    exact ⟨h.1, fun f' hf => by cases hf; exact h.2 f rfl⟩

/-- Telling of a rule leaves the progress as it is. -/
theorem logRule_ensures (noStart : ¬ p.starts) (hw : i.surroundings.Watching p) (e : Event)
    (kind : EventKind) (detail : String) {h : Handling σ} (hs : h.session.Running) :
    (i.logRule e kind detail).Ensures h fun o h' =>
      h.session.Passes p h'.session ∧ h'.progress = h.progress ∧
        ∀ f, o = .error f → p.fails f := by
  refine ensures_get_bind (ensures_change_bind (Ensures.on ?_))
  have reported := i.passes_report (p := p) hs stepLogger .debug
    (RuleLog.line ⟨kind, e, h.session.current.ledger.entries, detail⟩)
  refine (i.notifyLog_ensures noStart hw _ reported.running).mono ?_
  intro o s' hp
  exact ⟨reported.trans hp.1, rfl, hp.2⟩

/-- What a payment does: it is made, something is missing, or a token has no entry. -/
theorem payCurrent_cases (b : TokenBag) (h : Handling σ) :
    (∃ l, h.session.current.ledger.pay b = .ok l ∧
      payCurrent b h = (.ok [], { h with session := h.session.withLedger l })) ∨
    (∃ lack, lack ≠ [] ∧ h.session.current.ledger.pay b = .error (.insufficient lack) ∧
      payCurrent b h = (.ok lack, h)) ∨
    (∃ token ∈ b.types, h.session.current.ledger.balances.get? token = none ∧
      payCurrent b h = (.error (.ledger (.noEntry token)), h)) := by
  unfold payCurrent
  rcases h.session.current.ledger.pay_cases b with ⟨l, hp⟩ | ⟨hne, hp⟩ | ⟨token, ht, hget, hp⟩
  · exact .inl ⟨l, hp, by rw [hp]; rfl⟩
  · exact .inr (.inl ⟨_, hne, hp, by rw [hp]⟩)
  · exact .inr (.inr ⟨token, ht, hget, by rw [hp]⟩)

theorem payStep_ensures (a : Action) {h : Handling σ} (hs : h.session.Running) :
    (i.payStep a).Ensures h fun o h' =>
      (∃ l, h.session.current.ledger.pay a.costs = .ok l ∧ o = .ok () ∧
        h' = ⟨h.session.withLedger l, { h.progress with costPaid := some true }⟩) ∨
      (o = .ok () ∧ h.session.Passes p h'.session ∧
        h'.progress = { h.progress with costPaid := some false }) ∨
      (∃ token ∈ a.costs.types, h.session.current.ledger.balances.get? token = none ∧
        o = .error (.ledger (.noEntry token)) ∧ h' = h) := by
  unfold payStep
  simp only [Ensures, bind_apply]
  rcases payCurrent_cases a.costs h with ⟨l, hp, hpay⟩ | ⟨lack, hne, hp, hpay⟩ | ⟨t, ht, hget, hpay⟩
  · rw [hpay]
    exact .inl ⟨l, hp, rfl, rfl⟩
  · rw [hpay]
    cases lack with
    | nil => exact absurd rfl hne
    | cons x rest => exact .inr (.inl ⟨rfl, i.passes_report hs _ _ _, rfl⟩)
  · rw [hpay]
    exact .inr (.inr ⟨t, ht, hget, rfl, rfl⟩)

/-- An effect may fail, but it does no more than custom effects are permitted to. -/
theorem applyEffect_passes (noStart : ¬ p.starts) (ha : i.surroundings.Acting p)
    (data : p.AllowsData) (name : String) (payload : Data) {s : Session σ} (hs : s.Running) :
    s.Passes p (i.applyEffect name payload s).2 := by
  unfold applyEffect
  split
  · exact .refl hs
  · split
    · exact Session.passes_edit hs (data _ _ _)
    · exact .refl hs
  · split
    · exact Session.passes_edit hs (data _ _ _)
    · exact .refl hs
  · rename_i play hplay
    have hpass := (i.perform_ensures noStart (ha name play hplay payload) hs (.inl rfl)).1
    split <;> rename_i heq <;> rw [heq] at hpass <;> exact hpass

theorem effectStep_ensures (noStart : ¬ p.starts) (ha : i.surroundings.Acting p)
    (data : p.AllowsData) (applied : p.AllowsApplied) (a : Action) (e : Event) {h : Handling σ}
    (hs : h.session.Running) :
    (i.effectStep a e).Ensures h fun o h' => o = .ok () ∧ h.Passes p h' := by
  refine ensures_get_bind ?_
  simp only
  split
  · exact ⟨rfl, i.passes_report hs _ _ _, rfl, rfl⟩
  · have hpass := i.applyEffect_passes noStart ha data a.effectName e.payload hs
    refine Ensures.bind (R := fun o h' => h.Passes p h' ∧ ∃ outcome, o = .ok outcome)
      ⟨⟨hpass, rfl, rfl⟩, _, rfl⟩ ?_ (by rintro f s' ⟨-, outcome, ho⟩; cases ho)
    rintro outcome h₁ ⟨h₁pass, -⟩
    cases outcome with
    | error f =>
      refine ensures_change_bind ⟨rfl, h₁pass.trans ⟨?_, rfl, rfl⟩⟩
      exact i.passes_report h₁pass.session.running _ _ _
    | ok handled =>
      have noted {h₂ : Handling σ} (h₂pass : h.Passes p h₂) :
          (onSession (fun s => s.modifyCurrent fun c =>
              { c with applied := c.applied ++ [a.effectName] }) >>= fun _ =>
            note fun g => { g with effectApplied := true }).Ensures h₂
            fun o h' => o = .ok () ∧ h.Passes p h' := by
        have appended : h₂.session.Passes p (h₂.session.modifyCurrent fun c =>
            { c with applied := c.applied ++ [a.effectName] }) :=
          Session.passes_modifyCurrent h₂pass.session.running (applied _ _ _)
        exact ⟨rfl, h₂pass.trans ⟨appended, rfl, rfl⟩⟩
      cases handled with
      | true => exact noted h₁pass
      | false =>
        have reported := i.passes_report (p := p) h₁pass.session.running
        exact noted (h₁pass.trans ⟨reported _ _ _, rfl, rfl⟩)

/-- A constraint that blocks leaves the game as it is, but for what those who watch do to it. -/
theorem block_ensures (noStart : ¬ p.starts) (hw : i.surroundings.Watching p.calm)
    (c : Constraint) (e : Event) {h : Handling σ} (hs : h.session.Running) :
    (i.block c e).Ensures h fun o h' =>
      o = .error (.blocked c.name c.message) ∧ h.session.Passes p h'.session := by
  refine ensures_change_bind ?_
  refine Ensures.bind (i.logRule_ensures (p := p.calm) noStart hw e _ _ hs) ?_ ?_
  · intro _ h' hlog
    exact ⟨rfl, hlog.1.of_calm⟩
  · intro f h' hlog
    exact (hlog.2.2 f rfl).elim

theorem blocks_ensures (noStart : ¬ p.starts) (hj : i.surroundings.Judging p) (c : Constraint)
    (e : Event) {s : Session σ} (hs : s.Running) :
    (i.blocks c e).Ensures s (s.Permitted p) := by
  unfold blocks
  split
  · exact ⟨.refl hs, nofun⟩
  · rename_i key _
    refine Ensures.bind (i.perform_ensures noStart (hj key e) hs (.inl rfl)) ?_ ?_
    · intro v s' h
      exact ⟨h.1, nofun⟩
    · intro f s' h
      exact ⟨h.1, fun f' hf => by cases hf; exact h.2 f rfl⟩

/-- Checking a constraint: it passes, its bypass cost is taken, it blocks, or its predicate or the
payment is given up. -/
theorem checkStep_ensures (noStart : ¬ p.starts) (hw : i.surroundings.Watching p.calm)
    (hj : i.surroundings.Judging p) (c : Constraint) (e : Event) {h : Handling σ}
    (hs : h.session.Running) :
    (i.checkStep c e).Ensures h fun o h' =>
      (o = .ok () ∧ h.session.Passes p h'.session ∧
        h'.progress = { h.progress with verdict := some .passed }) ∨
      (∃ s l, h.session.Passes p s ∧ s.current.ledger.pay c.bypass = .ok l ∧ o = .ok () ∧
        h' = ⟨s.withLedger l, { h.progress with verdict := some .bypassed }⟩) ∨
      (o = .error (.blocked c.name c.message) ∧ h.session.Passes p h'.session) ∨
      (∃ f, o = .error f ∧ h.session.Passes p h'.session ∧
        (p.fails f ∨ ∃ t ∈ c.bypass.types, h'.session.current.ledger.balances.get? t = none)) := by
  unfold checkStep
  refine Ensures.bind (R := fun o h' => h.session.Permitted p o h'.session ∧
    h'.progress = h.progress) (Ensures.on ?_) ?_ ?_
  · exact (i.blocks_ensures noStart hj c e hs).mono fun _ _ hp => ⟨hp, rfl⟩
  · rintro blocked h₁ ⟨⟨judged, -⟩, same⟩
    cases blocked with
    | false => exact .inl ⟨rfl, judged, by rw [← same]; rfl⟩
    | true =>
      have blocks : (i.block c e).Ensures h₁ fun o h' =>
          o = .error (.blocked c.name c.message) ∧ h.session.Passes p h'.session :=
        (i.block_ensures noStart hw c e judged.running).mono fun _ _ hb =>
          ⟨hb.1, judged.trans hb.2⟩
      simp only [↓reduceIte]
      split
      · exact blocks.mono fun _ _ hb => .inr (.inr (.inl hb))
      · simp only [Ensures, bind_apply]
        rcases payCurrent_cases c.bypass h₁ with
          ⟨l, hp, hpay⟩ | ⟨lack, hne, hp, hpay⟩ | ⟨t, ht, hget, hpay⟩
        · rw [hpay]
          exact .inr (.inl ⟨h₁.session, l, judged, hp, rfl, by rw [← same]; rfl⟩)
        · rw [hpay]
          cases lack with
          | nil => exact absurd rfl hne
          | cons x rest => exact .inr (.inr (.inl blocks))
        · rw [hpay]
          exact .inr (.inr (.inr ⟨_, rfl, judged, .inr ⟨t, ht, hget⟩⟩))
  · rintro f h₁ ⟨⟨judged, hf⟩, -⟩
    exact .inr (.inr (.inr ⟨f, rfl, judged, .inl (hf f rfl)⟩))

end Interpreter
end TokenGate
