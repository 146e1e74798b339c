import TokenGate.Proofs.Interpreter.Erasure
import TokenGate.Proofs.Interpreter.Failure
import TokenGate.Proofs.Play.AtHand

/-!
# What a rule that fails leaves behind

The steps of a rule change the game one after another, and nothing is taken back. If a rule fails,
because its predicate does or those who watch, the game is as the steps before that have left it: a
trigger has granted its tokens, an action has paid and applied its effect, and a constraint may
have taken its bypass cost. Only the state, the turn and the history are as they were.
-/

namespace TokenGate

open Act Handling Session

variable {σ α : Type}

/-- How an action comes to apply its effect: it has paid, or it need not have. -/
inductive Action.Charged (i : Interpreter σ) (a : Action) (s : Session σ) : Session σ → Prop where
  | paid {l : Ledger} (charge : s.current.ledger.pay a.costs = .ok l) : Charged i a s (s.withLedger l)
  | unpaid {lack : List (String × Nat)} {message : String}
      (insufficient : s.current.ledger.pay a.costs = .error (.insufficient lack))
      (regardless : i.config.skipUnpaid = false) :
      Charged i a s (i.report Interpreter.stepLogger .info message s)

/-- The bypass cost of a constraint is due, as it blocks, and can be paid; `l` is what is left
then. -/
structure Constraint.Bypassed (i : Interpreter σ) (e : Event) (s s₁ : Session σ) (c : Constraint)
    (l : Ledger) : Prop where
  blocks : i.blocks c e s = (.ok true, s₁)
  due : c.bypass.isEmpty = false
  charge : s₁.current.ledger.pay c.bypass = .ok l

/-- How the game of the event at hand, with what has been done to data, looks when a rule has failed. A
constraint has taken its bypass cost if that was due and could be paid, and otherwise nothing. -/
inductive Rule.Leaves (i : Interpreter σ) (e : Event) (s : Session σ) :
    Rule → Context × Edits → Prop where
  | granted {t : Trigger} :
      Leaves i e s (.trigger t)
        ({ s.current with ledger := s.current.ledger.grantBag t.grants }, s.edits)
  | skipped {a : Action} {lack : List (String × Nat)}
      (insufficient : s.current.ledger.pay a.costs = .error (.insufficient lack))
      (skip : i.config.skipUnpaid = true) : Leaves i e s (.action a) s.world
  | undone {a : Action} {f : Fault} {s₁ s₂ : Session σ} (charged : a.Charged i s s₁)
      (failed : i.applyEffect a.effectName e.payload s₁ = (.error f, s₂)) :
      Leaves i e s (.action a) s₂.world
  | applied {a : Action} {known : Bool} {s₁ s₂ : Session σ} (charged : a.Charged i s s₁)
      (done : i.applyEffect a.effectName e.payload s₁ = (.ok known, s₂)) :
      Leaves i e s (.action a)
        ({ s₂.current with applied := s₂.current.applied ++ [a.effectName] }, s₂.edits)
  | judged {c : Constraint} (free : ∀ s₁ l, ¬ c.Bypassed i e s s₁ l) :
      Leaves i e s (.constraint c) (i.blocks c e s).2.world
  | bypassed {c : Constraint} {l : Ledger} {s₁ : Session σ} (paid : c.Bypassed i e s s₁ l) :
      Leaves i e s (.constraint c) ({ s₁.current with ledger := l }, s₁.edits)

/-- An action is about to skip its effect or to apply it. -/
inductive Action.Proceeds (i : Interpreter σ) (a : Action) (e : Event) (s : Session σ)
    (h : Handling σ) : Prop where
  | skips (unpaid : h.progress.costPaid = some false ∧ i.config.skipUnpaid = true)
      (left : (Rule.action a).Leaves i e s h.session.world) : Proceeds i a e s h
  | applies (unskipped : ¬ (h.progress.costPaid = some false ∧ i.config.skipUnpaid = true))
      (charged : a.Charged i s h.session) : Proceeds i a e s h

namespace Interpreter

variable {i : Interpreter σ} {P : Context × Edits → Prop} {p : Permit}

theorem applyEffect_atHand (spares : p.Spares P) (ha : i.surroundings.Acting p)
    (edited : ∀ {c s} edit, P (c, s) → P (c, s ++ [edit])) (name : String) (payload : Data) :
    (i.applyEffect name payload).Keeps (Session.AtHand P) fun _ => True := by
  refine applyEffect_keeps ?_ ?_ fun hplay =>
    i.perform_atHand spares .current (ha name _ hplay payload)
  · intro s edit _ hs _
    exact ⟨hs.started, edited edit hs.world⟩
  · intro s edit _ hs _
    exact ⟨hs.started, edited edit hs.world⟩

theorem blocks_atHand (spares : p.Spares P) (hj : i.surroundings.Judging p) (c : Constraint)
    (e : Event) : (i.blocks c e).Keeps (Session.AtHand P) fun _ => True := by
  unfold blocks
  split
  · exact fun s hs => ⟨hs, nofun⟩
  · exact (i.perform_atHand spares .current (hj _ e)).bind fun _ => keeps_pure _

/-- The game stays a running one, whatever an effect does. -/
theorem started_applyEffect {s : Session σ} (h : s.live.isSome = true) (name : String)
    (payload : Data) : (i.applyEffect name payload s).2.live.isSome = true :=
  (applyEffect_atHand (P := fun _ => True) ⟨fun _ _ => trivial, fun _ _ _ => trivial⟩
    i.abides_anything.acting (fun _ _ => trivial) name payload s ⟨h, trivial⟩).1.started

theorem started_blocks {s : Session σ} (h : s.live.isSome = true) (c : Constraint) (e : Event) :
    (i.blocks c e s).2.live.isSome = true :=
  (blocks_atHand (P := fun _ => True) ⟨fun _ _ => trivial, fun _ _ _ => trivial⟩
    (fun _ _ => Play.within_anything _) c e s ⟨h, trivial⟩).1.started

section Steps

variable (hw : i.surroundings.Watching .onlooking)

include hw

/-- Whoever is told of a rule leaves the game of the event at hand alone, also if the telling is
given up. -/
theorem logRule_atHand (e : Event) (kind : EventKind) (detail : String) :
    (i.logRule e kind detail).Keeps (fun h => h.session.AtHand P) fun _ => True := by
  have told (l : RuleLog) : (i.notifyLog l).Keeps (Session.AtHand P) fun _ => True :=
    notifyLog_keeps_of (i.perform_atHand (Permit.onlooking_spares P) .live (hw.onRuleLog l))
      fun name => i.perform_atHand (Permit.onlooking_spares P) .live (hw.logWatcher name l)
  refine keeps_get_bind fun h => (keeps_change fun _ hs => ?_).bind fun _ => ?_
  · exact i.atHand_report hs _ _ _
  · exact (told _).on (fun _ hs => hs) fun _ _ _ hs => hs

theorem block_atHand (c : Constraint) (e : Event) :
    (i.block c e).Keeps (fun h => h.session.AtHand P) fun _ => True := by
  have noted (f : Progress → Progress) :
      (note f).Keeps (fun h : Handling σ => h.session.AtHand P) fun _ => True :=
    keeps_change fun _ hs => hs
  exact (noted _).bind fun _ => (logRule_atHand hw e _ _).bind fun _ => keeps_fail trivial

/-- A trigger has granted its tokens before anybody is told. -/
theorem triggerChain_leaves (t : Trigger) (e : Event) {s : Session σ} (hs : s.live.isSome = true) :
    (i.runChain (.rule (.trigger t)) e (Step.chain .trigger)).Ensures ⟨s, .none⟩ fun _ h' =>
      h'.session.AtHand ((Rule.trigger t).Leaves i e s) := by
  have granted : (s.modifyCurrent fun c => { c with ledger := c.ledger.grantBag t.grants }).AtHand
      ((Rule.trigger t).Leaves i e s) := .modifyCurrent hs .granted
  refine ensures_change_bind ?_
  exact (((logRule_atHand hw e _ _).bind fun _ => keeps_pure ()) _ granted).mono fun _ _ h => h.1

omit hw in
/-- A payment from the game of the event at hand is made, or something is missing. -/
theorem payCurrent_cases_of_sound {b : TokenBag} (sound : b.Sound) (h : Handling σ) :
    (∃ l, h.session.current.ledger.pay b = .ok l ∧
      payCurrent b h = (.ok [], { h with session := h.session.withLedger l })) ∨
    ∃ lack, lack ≠ [] ∧ h.session.current.ledger.pay b = .error (.insufficient lack) ∧
      payCurrent b h = (.ok lack, h) := by
  unfold payCurrent
  rcases h.session.current.ledger.pay_cases_of_sound sound with ⟨l, hpay⟩ | ⟨hne, hpay⟩
  · exact .inl ⟨l, hpay, by rw [hpay]; rfl⟩
  · exact .inr ⟨_, hne, hpay, by rw [hpay]⟩

omit hw in
theorem payStep_proceeds (a : Action) (sound : a.costs.Sound) (e : Event) {s : Session σ}
    (hs : s.live.isSome = true) :
    (i.payStep a).Ensures ⟨s, .none⟩ fun o h' =>
      o = .ok () ∧ h'.session.live.isSome = true ∧ a.Proceeds i e s h' := by
  unfold payStep
  simp only [Ensures, bind_apply]
  rcases payCurrent_cases_of_sound sound ⟨s, .none⟩ with ⟨l, hpay, heq⟩ | ⟨lack, hne, hpay, heq⟩
  · rw [heq]
    exact ⟨rfl, started_modifyCurrent hs _, .applies (fun unpaid => by cases unpaid.1) (.paid hpay)⟩
  · rw [heq]
    cases lack with
    | nil => exact absurd rfl hne
    | cons x rest =>
      refine ⟨rfl, hs, ?_⟩
      cases skip : i.config.skipUnpaid with
      | true => exact .skips ⟨rfl, skip⟩ (.skipped hpay skip)
      | false =>
        refine .applies (fun unpaid => ?_) (.unpaid hpay skip)
        cases skip.symm.trans unpaid.2

omit hw in
/-- An effect that fails is noted, and one that does not is added to those that were applied. -/
theorem effectStep_leaves (a : Action) (e : Event) {s : Session σ} {h : Handling σ}
    (hs : h.session.live.isSome = true) (proceeds : a.Proceeds i e s h) :
    (i.effectStep a e).Ensures h fun o h' =>
      o = .ok () ∧ h'.session.AtHand ((Rule.action a).Leaves i e s) := by
  unfold effectStep
  refine ensures_get_bind ?_
  cases proceeds with
  | skips unpaid left =>
    simp only [if_pos unpaid]
    exact ⟨rfl, i.atHand_report ⟨hs, left⟩ _ _ _⟩
  | applies unskipped charged =>
    have started := started_applyEffect (i := i) hs a.effectName e.payload
    simp only [if_neg unskipped]
    refine Ensures.bind (R := fun o h' => ∃ answer, o = .ok answer ∧
      i.applyEffect a.effectName e.payload h.session = (answer, h'.session)) ?_ ?_ ?_
    · exact Ensures.attempt (Ensures.on ⟨_, rfl, rfl⟩)
    · rintro answer h₁ ⟨_, ho, heq⟩
      cases ho
      rw [heq] at started
      cases answer with
      | error f => exact ⟨rfl, i.atHand_report ⟨started, .undone charged heq⟩ _ _ _⟩
      | ok known =>
        have applied {s₂ : Session σ} (same : s₂.world = h₁.session.world)
            (h₂ : s₂.live.isSome = true) :
            (s₂.modifyCurrent fun c => { c with applied := c.applied ++ [a.effectName] }).AtHand
              ((Rule.action a).Leaves i e s) := by
          have current : s₂.current = h₁.session.current := congrArg Prod.fst same
          have edits : s₂.edits = h₁.session.edits := congrArg Prod.snd same
          refine .modifyCurrent h₂ ?_
          rw [current, edits]
          exact .applied charged heq
        cases known with
        | true => exact ⟨rfl, applied rfl started⟩
        | false => exact ⟨rfl, applied rfl started⟩
    · rintro f h' ⟨answer, ho, -⟩
      cases ho

theorem actionChain_leaves (a : Action) (sound : a.costs.Sound) (e : Event) {s : Session σ}
    (hs : s.live.isSome = true) :
    (i.runChain (.rule (.action a)) e (Step.chain .action)).Ensures ⟨s, .none⟩ fun _ h' =>
      h'.session.AtHand ((Rule.action a).Leaves i e s) := by
  refine Ensures.bind (payStep_proceeds a sound e hs) ?_ ?_
  · rintro _ h₁ ⟨-, started, proceeds⟩
    refine Ensures.bind (effectStep_leaves a e started proceeds) ?_ ?_
    · rintro _ h₂ ⟨-, left⟩
      refine (Leads.bind (keeps_get_bind fun _ => logRule_atHand hw e _ _)
        (fun _ => keeps_pure ()) h₂ left).mono fun _ _ h => h.1
    · rintro f h₂ ⟨ho, -⟩
      cases ho
  · rintro f h₁ ⟨ho, -⟩
    cases ho

/-- A constraint takes its bypass cost, if it blocks and can be paid, or nothing. -/
theorem constraintChain_leaves (c : Constraint) (sound : c.bypass.Sound) (e : Event)
    {s : Session σ} (hs : s.live.isSome = true) :
    (i.runChain (.rule (.constraint c)) e (Step.chain .constraint)).Ensures ⟨s, .none⟩ fun _ h' =>
      h'.session.AtHand ((Rule.constraint c).Leaves i e s) := by
  have started := started_blocks (i := i) hs c e
  have judged {o : Except Fault Bool} {h₁ : Handling σ} (heq : i.blocks c e s = (o, h₁.session))
      (free : ∀ l, o = .ok true → c.bypass.isEmpty = false →
        h₁.session.current.ledger.pay c.bypass ≠ .ok l) :
      h₁.session.AtHand ((Rule.constraint c).Leaves i e s) := by
    rw [heq] at started
    refine ⟨started, ?_⟩
    have world : h₁.session.world = (i.blocks c e s).2.world := by rw [heq]
    rw [world]
    refine .judged fun s₁ l paid => ?_
    obtain ⟨ho, rfl⟩ := Prod.mk.inj (heq.symm.trans paid.blocks)
    exact free l ho paid.due paid.charge
  refine Ensures.bind (R := fun _ h' => h'.session.AtHand ((Rule.constraint c).Leaves i e s))
    (Ensures.bind (R := fun o h' => i.blocks c e s = (o, h'.session)) ?_ ?_ ?_) ?_ ?_
  · have itself : (i.blocks c e).Ensures s fun o s' => i.blocks c e s = (o, s') := rfl
    exact Ensures.on itself
  · intro blocked h₁ heq
    cases blocked with
    | false => exact judged heq fun l closed => by cases closed
    | true =>
      simp only [↓reduceIte]
      split
      · rename_i nothing
        refine (block_atHand hw c e h₁ (judged heq fun l _ due => ?_)).1
        cases nothing.symm.trans due
      · rename_i due
        simp only [Ensures, bind_apply]
        rcases payCurrent_cases_of_sound sound h₁ with ⟨l, hpay, hcharge⟩ | ⟨lack, hne, hpay, hlack⟩
        · rw [hcharge]
          rw [heq] at started
          exact .modifyCurrent started (.bypassed ⟨heq, Bool.eq_false_iff.2 due, hpay⟩)
        · rw [hlack]
          cases lack with
          | nil => exact absurd rfl hne
          | cons x rest =>
            refine (block_atHand hw c e h₁ (judged heq fun l _ _ charge => ?_)).1
            cases hpay.symm.trans charge
  · intro f h₁ heq
    exact judged heq fun l failed => by cases failed
  · intro _ h₁ left
    exact (Leads.bind (keeps_get_bind fun _ => logRule_atHand hw e _ _)
      (fun _ => keeps_pure ()) h₁ left).mono fun _ _ h => h.1
  · intro f h₁ left
    exact left

/-- However the handling of a rule ends, it leaves the game as its steps have made it. -/
theorem handle_leaves {edge : Edge} {entry : CatalogEntry} (hentry : edge.entry? = some entry)
    (sound : entry.rule.tokens.Sound) (e : Event) {s : Session σ} (hs : s.live.isSome = true) :
    (i.handle edge e).Ensures s fun _ s' => s'.AtHand (entry.rule.Leaves i e s) := by
  have chain : (i.runChain (.rule entry.rule) e entry.steps).Ensures ⟨s, .none⟩ fun _ h' =>
      h'.session.AtHand (entry.rule.Leaves i e s) := by
    obtain ⟨label, rule⟩ := entry
    cases rule with
    | trigger t => exact triggerChain_leaves hw t e hs
    | action a => exact actionChain_leaves hw a sound e hs
    | constraint c => exact constraintChain_leaves hw c sound e hs
  exact i.handle_ensures hentry chain (fun _ h => h) (fun _ _ _ h => h) fun _ _ _ h => h

end Steps

/-- A running game is still running after a dispatch, whatever the surroundings do. -/
theorem running_dispatch {s : Session σ} (hs : s.Running) (e : Event) :
    (i.dispatch e s).2.Running := by
  have u := upholds_anything i.automaton
  have held : s.Holds .anything fun _ => True :=
    .of_live hs.current_eq hs.detached trivial fun hn => absurd trivial hn
  have proceeds := dispatch_proceeds i.abides_anything u (Q := fun _ _ => True) e hs.current_eq held
    fun _ _ => ⟨u.toPreserves, fun _ _ _ => trivial, fun _ _ => trivial⟩
  refine ⟨?_, detached_dispatch hs.detached e⟩
  simp only [Ensures] at proceeds
  generalize i.dispatch e s = result at proceeds
  obtain ⟨o, s'⟩ := result
  cases proceeds with
  | ignored _ after => exact after.started
  | blocked _ after => exact after.started
  | followed _ after => exact after.started
  | failed _ _ after => exact after.elim Holds.started Holds.started

theorem Course.running {s s' : Session σ} {log : List Response} (h : i.Course s log s')
    (hs : s.Running) : s'.Running := by
  induction h with
  | done s => exact hs
  | between queue dispatching _ ih => exact ih ⟨hs.live, hs.detached⟩
  | @dispatched s s₁ s' e r log answered _ ih =>
    have after := running_dispatch (i := i) hs e
    rw [answered] at after
    exact ih after

/-- Where custom effects and predicates leave the story of a game alone, so does a rule that
fails. -/
theorem story_of_leaves (ha : i.surroundings.Acting Permit.storyKeeping.restarting)
    (hj : i.surroundings.Judging Permit.storyKeeping.restarting) {e : Event} {s : Session σ}
    (hs : s.live.isSome = true) {r : Rule} {w : Context × Edits} (left : r.Leaves i e s w) :
    w.1.story = s.current.story := by
  have spares : Permit.storyKeeping.restarting.Spares fun w => w.1.story = s.current.story :=
    ⟨fun same h => Eq.trans same h, fun _ _ h => h⟩
  have start : s.AtHand fun w => w.1.story = s.current.story := ⟨hs, rfl⟩
  have charged {a : Action} {s₁ : Session σ} (h : a.Charged i s s₁) :
      s₁.AtHand fun w => w.1.story = s.current.story := by
    cases h with
    | paid charge => exact .modifyCurrent hs rfl
    | unpaid => exact i.atHand_report start _ _ _
  have applied {name : String} {o : Except Fault Bool} {s₁ s₂ : Session σ}
      (h : s₁.AtHand fun w => w.1.story = s.current.story)
      (done : i.applyEffect name e.payload s₁ = (o, s₂)) :
      s₂.AtHand fun w => w.1.story = s.current.story := by
    have kept := (applyEffect_atHand spares ha (fun _ h => h) name e.payload s₁ h).1
    rwa [done] at kept
  have judged (c : Constraint) := (blocks_atHand spares hj c e s start).1
  cases left with
  | granted => rfl
  | skipped => rfl
  | undone h failed => exact (applied (charged h) failed).world
  | applied h done => exact (applied (charged h) done).world
  | judged => exact (judged _).world
  | @bypassed c _ _ paid =>
    have kept := judged c
    rw [paid.blocks] at kept
    exact kept.world

/-- A send that fails has taken its course up to a dispatch that does, that of the event that was
sent or of the next one that waits. If the rule of that event has failed, nothing is taken back: the
game is as the steps of the rule have left it, while its state, its turn and its history are as they
were, unless a custom effect or a predicate writes them. Those who watch do not change the game;
they may give up, send events and start it anew. -/
theorem leaves_of_send {reader : Reader} {v : Value} {d : Definition}
    (hd : Definition.ofValue reader v = .ok d) (hb : Automaton.build d = .ok i.automaton)
    (hw : i.surroundings.Watching .onlooking) {fuel : Nat} {e : Event} {f : Fault}
    {s s' : Session σ} (hs : s.Running) (idle : s.dispatching = false)
    (hsend : i.send fuel e s = some (.error f, s')) :
    ∃ log t x s₁, i.sendLog fuel e s = some (log, .error f, s') ∧ i.Arrives e s log x t ∧
      i.Course s log t ∧ t.Running ∧ i.dispatch x t = (.error f, s₁) ∧
      s' = (forget s₁).release ∧
      ∀ edge t₁, i.automaton.edge? t.current.state x.type = some edge →
        i.handle edge x t = (.error f, t₁) →
        (∃ entry, edge.entry? = some entry ∧ entry.rule.Leaves i x t t₁.world) ∧
        (t₁.detached = none → s'.live = some t₁.current ∧ s'.edits = t₁.edits) ∧
        (i.surroundings.Acting Permit.storyKeeping.restarting →
          i.surroundings.Judging Permit.storyKeeping.restarting →
          t₁.current.story = t.current.story) := by
  obtain ⟨log, hlog⟩ := i.sendLog_of_send hsend
  obtain ⟨t, x, s₁, arrives, hdispatch, rfl⟩ := failed_of_sendLog idle hlog
  have running := arrives.course.running hs
  refine ⟨log, t, x, s₁, hlog, arrives, arrives.course, running, hdispatch, rfl,
    fun edge t₁ found failed => ?_⟩
  cases hentry : edge.entry? with
  | none =>
    simp only [handle, hentry] at failed
    cases failed
  | some entry =>
    have bound : i.automaton.Binds entry.rule := ⟨_, _, edge, entry, found, hentry, rfl⟩
    have sound := (Definition.legible_of_ofValue hd (Automaton.mem_rules_of_binds hb bound)).tokens
    have left := handle_leaves hw hentry sound x running.live
    rw [Ensures, failed] at left
    refine ⟨⟨entry, rfl, left.world⟩, fun attached => ?_,
      fun ha hj => story_of_leaves ha hj running.live left.world⟩
    rw [dispatch_of_handle running found failed] at hdispatch
    cases hdispatch
    exact ⟨Running.current_eq ⟨left.started, attached⟩, rfl⟩

end Interpreter

/-- The game of the gate with an observer that gives up whenever it is told of a rule. -/
def Interpreter.alarmed : Interpreter Unit where
  automaton := .gate
  config := .usual
  surroundings :=
    { Surroundings.quiet fun _ m => m with onRuleLog _ := .fail (.raised "RuntimeError" "told") }

theorem build_alarmed : Automaton.build .gate = .ok Interpreter.alarmed.automaton := by
  have built := build_gate
  simp only [Interpreter.gate] at built
  simp only [Interpreter.alarmed]
  exact built

theorem alarmed_watching {p : Permit} (fails : ∀ f, p.fails f) :
    Interpreter.alarmed.surroundings.Watching p :=
  ⟨fun _ => trivial, fun _ => fails _, fun _ _ => trivial, fun _ _ => trivial⟩

/-- Gold is dug, but whoever is told of it gives up. -/
theorem alarmed_digs :
    ∃ s edge f t₁ s', Interpreter.alarmed.Reachable s ∧ s.Running ∧
      Interpreter.alarmed.automaton.edge? s.current.state "TRIGGER_DIG" = some edge ∧
      Interpreter.alarmed.handle edge ⟨"TRIGGER_DIG", .object []⟩ s.engage = (.error f, t₁) ∧
      Interpreter.alarmed.send 0 ⟨"TRIGGER_DIG", .object []⟩ s = some (.error f, s') ∧
      s.current.ledger.balance "gold" = 0 ∧ s'.current.ledger.balance "gold" = 1 := by
  have facts : ((Interpreter.alarmed.send 0 ⟨"START_GAME", .object []⟩
      (Interpreter.alarmed.start (.idle ()))).map fun run =>
        (run.2.live.isSome, run.2.current.ledger.balance "gold",
          (Interpreter.alarmed.automaton.edge? run.2.current.state "TRIGGER_DIG").map fun edge =>
            let handled :=
              Interpreter.alarmed.handle edge ⟨"TRIGGER_DIG", .object []⟩ run.2.engage
            let left := Interpreter.forget { handled.2 with detached := none }
            (handled.1.toBool, left.current.ledger.balance "gold"))) =
      some (true, 0, some (false, 1)) := by
    decide +kernel
  obtain ⟨⟨o, s⟩, begun, hs⟩ := Option.map_eq_some_iff.1 facts
  simp only [Prod.mk.injEq] at hs
  obtain ⟨live, before, hhandle⟩ := hs
  obtain ⟨edge, found, handled⟩ := Option.map_eq_some_iff.1 hhandle
  have reached : Interpreter.alarmed.Reachable s := (Interpreter.Reachable.start (.idle ())).send begun
  have running : s.Running := ⟨live, reached.rests.detached⟩
  have engaged : s.engage.Running := ⟨live, reached.rests.detached⟩
  cases failed : Interpreter.alarmed.handle edge ⟨"TRIGGER_DIG", .object []⟩ s.engage with
  | mk o t₁ =>
    rw [failed, Prod.mk.injEq] at handled
    cases o with
    | ok _ => cases handled.1
    | error f =>
      have dispatched := Interpreter.dispatch_of_handle (e := ⟨"TRIGGER_DIG", .object []⟩) engaged
        found failed
      have sent : Interpreter.alarmed.send 0 ⟨"TRIGGER_DIG", .object []⟩ s = _ :=
        Interpreter.alarmed.send_of_dispatch_error reached.rests.idle dispatched
      exact ⟨s, edge, f, t₁, _, reached, running, found, failed, sent, before, handled.2⟩

/-- It is not so that a rule that fails leaves the game as it was. -/
theorem Interpreter.not_restored :
    ¬ ∀ (i : Interpreter Unit) (v : Value) (d : Definition),
      Definition.ofValue .usual v = .ok d → Automaton.build d = .ok i.automaton →
      i.surroundings.Watching .onlooking →
      ∀ s fuel e f s' edge t₁, i.Reachable s → s.Running →
        i.automaton.edge? s.current.state e.type = some edge →
        i.handle edge e s.engage = (.error f, t₁) → i.send fuel e s = some (.error f, s') →
        s'.current.ledger = s.current.ledger ∧
          s'.current.fields s'.edits = s.current.fields s.edits ∧
          s'.current.applied = s.current.applied ∧ s'.current.story = s.current.story := by
  intro restored
  obtain ⟨s, edge, f, t₁, s', reached, running, found, failed, sent, before, after⟩ := alarmed_digs
  have same := (restored .alarmed _ _ ofValue_gateRules build_alarmed
    (alarmed_watching fun _ => trivial) s 0 ⟨"TRIGGER_DIG", .object []⟩ f s' edge t₁ reached running
    found failed sent).1
  rw [same, before] at after
  cases after

theorem alarmed_leaves_of_send :
    ∃ s s' f log t x s₁,
      Interpreter.alarmed.send 0 ⟨"TRIGGER_DIG", .object []⟩ s = some (.error f, s') ∧
      Interpreter.alarmed.sendLog 0 ⟨"TRIGGER_DIG", .object []⟩ s = some (log, .error f, s') ∧
      Interpreter.alarmed.Arrives ⟨"TRIGGER_DIG", .object []⟩ s log x t ∧
      Interpreter.alarmed.Course s log t ∧ t.Running ∧
      Interpreter.alarmed.dispatch x t = (.error f, s₁) ∧ s' = (Interpreter.forget s₁).release ∧
      ∀ edge t₁, Interpreter.alarmed.automaton.edge? t.current.state x.type = some edge →
        Interpreter.alarmed.handle edge x t = (.error f, t₁) →
        (∃ entry, edge.entry? = some entry ∧
          entry.rule.Leaves Interpreter.alarmed x t t₁.world) ∧
        (t₁.detached = none → s'.live = some t₁.current ∧ s'.edits = t₁.edits) ∧
        (Interpreter.alarmed.surroundings.Acting Permit.storyKeeping.restarting →
          Interpreter.alarmed.surroundings.Judging Permit.storyKeeping.restarting →
          t₁.current.story = t.current.story) := by
  obtain ⟨s, edge, f, t₁, s', reached, running, -, -, sent, -, -⟩ := alarmed_digs
  obtain ⟨log, t, x, s₁, left⟩ := Interpreter.leaves_of_send (i := .alarmed) ofValue_gateRules
    build_alarmed (alarmed_watching fun _ => trivial) running reached.rests.idle sent
  exact ⟨s, s', f, log, t, x, s₁, sent, left⟩

end TokenGate
