import TokenGate.Definition.Numeral
import TokenGate.Proofs.Definition.Rules
import TokenGate.Proofs.Interpreter.Dispatch
import TokenGate.Proofs.Interpreter.Dispatching
import TokenGate.Proofs.Interpreter.MirrorRun
import TokenGate.Proofs.Ledger.Entries

/-!
# Events that come to nothing

An event that is ignored or blocked leaves the game as it is. In surroundings that only listen, it
can therefore be left out of a run: the other events are answered as before, and the game ends in
the same condition.
-/

namespace TokenGate

open Act

variable {σ τ : Type}

/-- A session seen without those who watch and without what the surroundings remember. -/
def Session.bare (s : Session σ) : Session Unit where
  live := s.live
  detached := s.detached
  queue := s.queue
  dispatching := s.dispatching
  transitionWatchers := []
  logWatchers := []
  edits := s.edits
  games := s.games
  copies := s.copies
  memory := ()

/-- The session goes on, no event waits, and every token of the automaton has an entry. -/
structure Session.Ready (a : Automaton) (s : Session σ) : Prop where
  running : s.Running
  queue : s.queue = []
  listed : ∀ token ∈ a.tokenTypes, s.current.ledger.Lists token

theorem Session.Running.bare_eq {s s' : Session σ} (hs : s.Running) (hs' : s'.Running)
    (hcurrent : s'.current = s.current) (hedits : s'.edits = s.edits)
    (hqueue : s'.queue = s.queue) (same : s'.account = s.account) : s'.bare = s.bare := by
  have hlive : s'.live = s.live := by rw [hs.current_eq, hs'.current_eq, hcurrent]
  have hdetached : s'.detached = s.detached := hs'.detached.trans hs.detached.symm
  simp only [account, Prod.mk.injEq] at same
  simp only [bare, hlive, hdetached, hqueue, same, hedits]

/-- To those who listen nothing happens. -/
theorem Session.Passes.bare_eq {s s' : Session σ} (hs : s.Running)
    (h : s.Passes .listening s') (same : s'.account = s.account) : s'.bare = s.bare := by
  obtain ⟨hcurrent, hedits⟩ := Prod.mk.inj h.changes
  exact hs.bare_eq h.running hcurrent hedits (h.queue id) same

/-- What only listens is mirrored by doing nothing. -/
theorem mirrors_of_listening {s : Session σ} (hs : s.Running) {x : Act (Session σ) Unit}
    {y : Act (Session Unit) Unit} (hx : x.Ensures s (s.Permitted .listening))
    (same : (x s).2.account = s.account) (hy : y s.bare = (.ok (), s.bare)) :
    Mirrors Session.bare Session.Running s x y := by
  obtain ⟨hpass, hfail⟩ := hx
  refine ⟨?_, hpass.running⟩
  rw [hy, hpass.bare_eq hs same]
  cases ho : (x s).1 with
  | ok _ => rfl
  | error f => exact (hfail f ho).elim

theorem EffectHandler.usual_mirrored (i : Interpreter σ) (j : Interpreter τ)
    (see : Session σ → Session τ) (sound : Session σ → Prop) (name : String) :
    Mirrored i j see sound (usual.get? name) (usual.get? name) := by
  simp only [usual, Table.ofList, List.foldl_cons, List.foldl_nil, Table.get?_put,
    Table.get?_empty]
  split
  · exact .removePiece
  · split
    · exact .setFlag
    · exact .none

/-- What the rules of a definition leave behind: entries stay, and so do the events that wait. -/
theorem Rule.Settles.within {p q : Permit} (keeps : ∀ {v w}, p.changes v w → w.1.ledger = v.1.ledger)
    (below : q.Below p) (quiet : ¬ p.sends) {s s' : Session σ} (hs : s.Running) {r : Rule}
    {o : Except Fault (Except Fault Progress)} (h : r.Settles p q s o s') :
    s.current.ledger.Within s'.current.ledger ∧ s'.queue = s.queue := by
  have ledger {s₁ s₂ : Session σ} (hpass : s₁.Passes p s₂) :
      s₂.current.ledger = s₁.current.ledger := keeps hpass.changes
  have charged {s₁ s₂ : Session σ} {l : Ledger} (h₁ : s₁.Running)
      (hpass : (s₁.withLedger l).Passes p s₂) : s₂.current.ledger = l ∧ s₂.queue = s₁.queue := by
    refine ⟨?_, (hpass.queue quiet).trans (s₁.queue_modifyCurrent _)⟩
    rw [ledger hpass, Session.withLedger, h₁.current_modifyCurrent]
  have same {s₂ : Session σ} (hpass : s.Passes p s₂) :
      s.current.ledger.Within s₂.current.ledger ∧ s₂.queue = s.queue :=
    ⟨by rw [ledger hpass]; exact .refl _, hpass.queue quiet⟩
  cases h with
  | granted after =>
    obtain ⟨hl, hqueue⟩ := charged hs (after.weaken below)
    exact ⟨hl ▸ Ledger.within_grantBag _ _, hqueue⟩
  | paid charge after =>
    obtain ⟨hl, hqueue⟩ := charged hs after
    exact ⟨hl ▸ Ledger.within_pay charge, hqueue⟩
  | unpaid after => exact same after
  | passed after => exact same (after.weaken below)
  | bypassed before charge after =>
    obtain ⟨hl, hqueue⟩ := charged before.running (after.weaken below)
    rw [ledger (before.weaken below)] at charge
    exact ⟨hl ▸ Ledger.within_pay charge, hqueue.trans ((before.weaken below).queue quiet)⟩
  | blocked after => exact same (after.weaken below)
  | failed after => exact same (after.weaken below)

theorem Edge.Settles.within {p q : Permit} (keeps : ∀ {v w}, p.changes v w → w.1.ledger = v.1.ledger)
    (below : q.Below p) (quiet : ¬ p.sends) {s s' : Session σ} (hs : s.Running) {edge : Edge}
    {o : Except Fault (Except Fault Progress)} (h : edge.Settles p q s o s') :
    s.current.ledger.Within s'.current.ledger ∧ s'.queue = s.queue := by
  unfold Edge.Settles at h
  split at h
  · rw [h.2]
    exact ⟨.refl _, rfl⟩
  · exact h.within keeps below quiet hs

theorem Session.Ready.of_passes {a : Automaton} {s s' : Session σ} (hs : s.Ready a)
    (h : s.Passes .listening s') :
    s'.Ready a ∧ s'.current = s.current ∧ s'.edits = s.edits := by
  obtain ⟨hcurrent, hedits⟩ := Prod.mk.inj h.changes
  refine ⟨⟨h.running, (h.queue id).trans hs.queue, ?_⟩, hcurrent, hedits⟩
  rw [hcurrent]
  exact hs.listed

/-- The constraints of a game that was read from data have conditions for gates. -/
theorem gate_of_binds {integer? : String → Option Int} {v : Value} {d : Definition}
    (hd : Definition.ofValue (.data integer?) v = .ok d)
    {a : Automaton} (ha : Automaton.build d = .ok a) {c : Constraint}
    (hc : a.Binds (.constraint c)) : ∃ cond, c.gate = .condition cond := by
  obtain ⟨cond, hcond, -⟩ := Definition.compile_of_ofValue hd (Automaton.mem_rules_of_binds ha hc)
  exact ⟨cond, hcond⟩

namespace Interpreter

variable {i : Interpreter σ}

/-- The interpreter in surroundings where nobody listens. -/
def silent (i : Interpreter σ) : Interpreter Unit := ⟨i.automaton, i.config, .quiet fun _ m => m⟩

/-- An interpreter in surroundings that only listen is mirrored by the one where nobody does. -/
theorem silent_mirror (effects : i.surroundings.effects = EffectHandler.usual)
    (hw : i.surroundings.Watching .listening)
    (gates : ∀ {c}, i.automaton.Binds (.constraint c) → ∃ cond, c.gate = .condition cond) :
    Mirror i i.silent Session.bare Session.Running where
  automaton := rfl
  config := rfl
  running hs := hs
  live _ := rfl
  detached _ := rfl
  edits _ := rfl
  copies _ := rfl
  report _ _ _ _ hs := ⟨rfl, hs.live, hs.detached⟩
  write _ _ _ hs := ⟨rfl, rfl, hs.detached⟩
  copied hs := ⟨rfl, hs.live, hs.detached⟩
  effect name := by
    rw [effects]
    exact EffectHandler.usual_mirrored i i.silent _ _ name
  judge hc hgate := by
    obtain ⟨cond, h⟩ := gates hc
    rw [h] at hgate
    cases hgate
  notify n s hs := mirrors_of_listening hs (i.notify_ensures (p := .listening) id hw n hs)
    (account_notify hw id n s) rfl
  notifyLog l s hs := mirrors_of_listening hs (i.notifyLog_ensures (p := .listening) id hw l hs)
    (account_notifyLog hw id l s) rfl

/-- Where nobody listens, every dispatch is answered, and one that does not move the game on leaves
it as it is. -/
theorem silent_dispatch {d : Definition} (hb : Automaton.build d = .ok i.automaton)
    (limit : i.config.maxHistory.IsWhole) (e : Event) {s : Session Unit}
    (hs : s.Ready i.automaton) :
    ∃ r s', i.silent.dispatch e s = (.ok r, s') ∧ s'.Ready i.automaton ∧
      (r.transitioned = false →
        s'.current = s.current ∧ s'.edits = s.edits ∧ s'.account = s.account) := by
  have keep : i.silent.surroundings.KeepTo (Permit.keeping Context.ledger).hushed .listening :=
    { below := ⟨fun {v w} (h : w = v) => by rw [h]; rfl, id, id⟩
      noStart := id
      data := fun _ _ _ => rfl
      applied := fun _ _ _ => rfl
      acting := Surroundings.acting_of_usual rfl
      watching := ⟨fun _ => trivial, fun _ => trivial, fun _ _ => trivial, fun _ _ => trivial⟩
      judging := fun _ _ => trivial }
  have spec := i.silent.dispatch_ensures keep limit e hs.running
  have account {r : Response} {s' : Session Unit} (hd : i.silent.dispatch e s = (.ok r, s'))
      (stays : r.transitioned = false) : s'.account = s.account :=
    account_dispatch (i := i.silent) (p := .listening) id
      ⟨fun _ => trivial, fun _ => trivial, fun _ _ => trivial, fun _ _ => trivial⟩
      (Surroundings.acting_of_usual rfl) (fun _ _ => trivial) hd stays
  simp only [Ensures] at spec
  generalize hd : i.silent.dispatch e s = result at spec
  obtain ⟨o, s'⟩ := result
  simp only at spec
  cases spec with
  | ignored _ after =>
    obtain ⟨ready, current, edits⟩ := hs.of_passes after
    exact ⟨_, s', rfl, ready, fun stays => ⟨current, edits, account hd stays⟩⟩
  | blocked _ settled after =>
    obtain ⟨ready, current, edits⟩ := hs.of_passes (settled.passes_of_blocked.trans after)
    exact ⟨_, s', rfl, ready, fun stays => ⟨current, edits, account hd stays⟩⟩
  | @followed edge g s₁ _ kept found settled _ after =>
    obtain ⟨entries, hqueue⟩ := settled.within id keep.below id hs.running
    have hs₁ := settled.running hs.running
    obtain ⟨hcurrent, -⟩ := Prod.mk.inj after.changes
    refine ⟨_, s', rfl, ⟨after.running, ?_, fun token ht => ?_⟩, fun stays => ?_⟩
    · rw [after.queue id, Session.queue_modifyCurrent, hqueue, hs.queue]
    · rw [hcurrent, hs₁.current_modifyCurrent]
      exact entries token (hs.listed token ht)
    · cases stays
  | @failed edge f _ found settled =>
    obtain ⟨after, reason⟩ := settled.passes_of_failed
    obtain ⟨-, hcurrent, -⟩ := hs.of_passes after
    rcases reason with hfail | ⟨entry, hentry, token, ht, hget⟩
    · exact hfail.elim
    · have bound := Automaton.mem_rules_of_binds hb ⟨_, _, edge, entry, found, hentry, rfl⟩
      have listed : token ∈ i.automaton.tokenTypes := by
        obtain ⟨-, -, -, -, htypes, -⟩ := Automaton.build_spec hb
        rw [htypes]
        exact Definition.mem_tokenTypes.2 ⟨entry.rule, bound, ht⟩
      have := hs.listed token listed
      rw [Ledger.Lists, ← hcurrent, hget] at this
      cases this

/-- A dispatch in surroundings that only listen is answered as where nobody does, and the events
that are sent afterwards find the same game. -/
theorem dispatch_of_silent (m : Mirror i i.silent Session.bare Session.Running) {d : Definition}
    (hb : Automaton.build d = .ok i.automaton) (limit : i.config.maxHistory.IsWhole) (e : Event)
    {s : Session σ} (hs : s.Ready i.automaton) :
    ∃ r s', i.dispatch e s = (.ok r, s') ∧ i.silent.dispatch e s.bare = (.ok r, s'.bare) ∧
      s'.Ready i.automaton ∧ (r.transitioned = false → s'.bare = s.bare) := by
  have ready : s.bare.Ready i.automaton :=
    ⟨⟨hs.running.live, hs.running.detached⟩, hs.queue, hs.listed⟩
  obtain ⟨r, u, hd, hu, idle⟩ := silent_dispatch hb limit e ready
  obtain ⟨heq, hrun⟩ := m.dispatch hs.running e
  rw [hd] at heq
  obtain ⟨ho, rfl⟩ := Prod.mk.inj heq
  refine ⟨r, (i.dispatch e s).2, Prod.ext ho.symm rfl, hd, ⟨hrun, hu.queue, hu.listed⟩, ?_⟩
  intro hr
  obtain ⟨hcurrent, hedits, same⟩ := idle hr
  exact hs.running.bare_eq hrun hcurrent hedits (hu.queue.trans hs.queue.symm) same

/-- Of the events that are sent, those that move the game on would do the same without the
others. -/
theorem sendAll_of_silent (m : Mirror i i.silent Session.bare Session.Running) {d : Definition}
    (hb : Automaton.build d = .ok i.automaton) (limit : i.config.maxHistory.IsWhole) (fuel : Nat)
    (es : List Event) {s : Session σ} (idle : s.dispatching = false) (hs : s.Ready i.automaton) :
    ∃ (answers : List Response) (s' : Session σ),
      i.sendAll fuel es s = some (answers.map .ok, s') ∧ s'.Running ∧
      answers.map Response.event = es ∧
      i.silent.sendAll fuel ((answers.filter Response.transitioned).map Response.event) s.bare =
        some ((answers.filter Response.transitioned).map .ok, s'.bare) := by
  induction es generalizing s with
  | nil => exact ⟨[], s, rfl, hs.running, rfl, rfl⟩
  | cons e rest ih =>
    have engaged : s.engage.Ready i.automaton :=
      ⟨⟨hs.running.live, hs.running.detached⟩, hs.queue, hs.listed⟩
    obtain ⟨r, s₁, hd, hsilent, hs₁, same⟩ := dispatch_of_silent m hb limit e engaged
    have released : s₁.release.Ready i.automaton :=
      ⟨⟨hs₁.running.live, hs₁.running.detached⟩, hs₁.queue, hs₁.listed⟩
    obtain ⟨answers, s', hrest, hs', hevents, herased⟩ := ih rfl released
    have hevent := event_of_dispatch _ hd
    refine ⟨r :: answers, s', ?_, hs', by rw [List.map_cons, hevent, hevents], ?_⟩
    · exact sendAll_cons _ idle hd hs₁.queue hrest
    · cases hr : r.transitioned with
      | false =>
        have unchanged : s₁.release.bare = s.bare := by
          have back := congrArg Session.release (same hr)
          refine Eq.trans back ?_
          show s.bare.release = s.bare
          rw [Session.release, ← idle]
          rfl
        rw [List.filter_cons_of_neg (by simp [hr]), ← unchanged]
        exact herased
      | true =>
        rw [List.filter_cons_of_pos hr, List.map_cons, hevent]
        exact sendAll_cons _ idle hsilent hs₁.queue herased

theorem ready_start (i : Interpreter σ) (s : Session σ) : (i.start s).Ready i.automaton := by
  refine ⟨⟨rfl, rfl⟩, rfl, fun token ht => ?_⟩
  exact Ledger.lists_register .empty ht

theorem keepsSending_bare : KeepsSending (Session.bare (σ := σ)) Session.Running where
  queue _ := rfl
  waiting _ _ hs := ⟨rfl, hs.live, hs.detached⟩
  live _ := rfl
  dispatching _ := rfl
  turned _ _ hs := ⟨rfl, hs.live, hs.detached⟩

/-- Ignored and blocked events can be left out of a run. Of all events that are sent to a game that
has just been started, those that were followed are sent once more to another game of the same
kind: each is followed again, with the same answer, and both games end in the same condition.
Each session has its own edits, so that what happens to shared data in one of them does not
show in the other: the events that are sent to it are copies. Both sessions count their games and
snapshots alike. -/
theorem sendAll_erase {integer? : String → Option Int} {v : Value} {d : Definition}
    (hd : Definition.ofValue (.data integer?) v = .ok d)
    {i : Interpreter σ} {j : Interpreter τ} (hi : Automaton.build d = .ok i.automaton)
    (hj : Automaton.build d = .ok j.automaton) (config : j.config = i.config)
    (limit : i.config.maxHistory.IsWhole)
    (effects : i.surroundings.effects = EffectHandler.usual)
    (effects' : j.surroundings.effects = EffectHandler.usual)
    (hw : i.surroundings.Watching .listening) (hw' : j.surroundings.Watching .listening)
    {s : Session σ} {t : Session τ} (idle : s.dispatching = false) (idle' : t.dispatching = false)
    (edits : t.edits = s.edits) (number : t.newNumber = s.newNumber) (copies : t.copies = s.copies)
    (fuel : Nat) (es : List Event) :
    ∃ (answers : List Response) (s' : Session σ) (t' : Session τ) (c : Context),
      i.sendAll fuel es (i.start s) = some (answers.map .ok, s') ∧
      answers.map Response.event = es ∧
      j.sendAll fuel ((answers.filter Response.transitioned).map Response.event) (j.start t) =
        some ((answers.filter Response.transitioned).map .ok, t') ∧
      s'.live = some c ∧ t'.live = some c ∧ s'.edits = t'.edits ∧
      snapshot s' = snapshot t' := by
  have same : j.automaton = i.automaton := Except.ok.inj (hj.symm.trans hi)
  have silent_eq : j.silent = i.silent := by simp only [silent, same, config]
  have fresh : (j.start t).bare = (i.start s).bare := by
    simp only [start, restart, report, Session.restart, Session.startAs, Session.bare, same, edits,
      number, copies, idle, idle']
  obtain ⟨answers, s', hrun, hs', hevents, herased⟩ :=
    sendAll_of_silent (s := i.start s) (silent_mirror effects hw (gate_of_binds hd hi)) hi limit
      fuel es idle (i.ready_start s)
  have mirrored := (silent_mirror effects' hw' (gate_of_binds hd hj)).sendAll keepsSending_bare fuel
    ((answers.filter Response.transitioned).map Response.event) (j.ready_start t).running
  rw [silent_eq, fresh, herased] at mirrored
  obtain ⟨⟨answers', t'⟩, hrun', heq⟩ := Option.map_eq_some_iff.1 mirrored.symm
  obtain ⟨rfl, hbare⟩ := Prod.mk.inj heq
  have hlive : t'.live = s'.live := congrArg Session.live hbare
  have hedits : t'.edits = s'.edits := congrArg Session.edits hbare
  have hcopies : t'.copies = s'.copies := congrArg Session.copies hbare
  refine ⟨answers, s', t', s'.current, hrun, hevents, hrun', hs'.current_eq, ?_,
    hedits.symm, ?_⟩
  · rw [hlive, hs'.current_eq]
  · simp only [snapshot, hlive, hedits, hcopies]

end Interpreter

/-- The rules of a game in which a gate is closed to those who have less than two pieces of gold
and cannot pay one. -/
def gateRules : Value :=
  .object [
    ("name", .str "gate"),
    ("triggers", .list [.object [("event", .str "dig"), ("grants", .str "gold")]]),
    ("constraints", .list [.object [
      ("name", .str "gate"),
      ("condition", .str "ledger.gold < 2"),
      ("bypass_cost", .str "gold gold")]])]

def Definition.gate : Definition :=
  (Definition.ofValue .usual gateRules).toOption.getD ⟨"", 2, [], [], [], []⟩

def Automaton.gate : Automaton := (build .gate).toOption.getD ⟨.gate, [], [], []⟩

/-- The game in surroundings that count the transitions. -/
def Interpreter.gate : Interpreter Nat where
  automaton := .gate
  config := .usual
  surroundings :=
    { Surroundings.quiet fun _ n => n with onTransition _ := .remember (· + 1) (.done ()) }

theorem ofValue_gateRules : Definition.ofValue .usual gateRules = .ok .gate :=
  Result.eq_ok_getD _ (by decide +kernel)

theorem build_gate : Automaton.build .gate = .ok Interpreter.gate.automaton := by
  simp only [Interpreter.gate]
  exact Result.eq_ok_getD _ (by decide +kernel)

/-- Its observer only counts. -/
theorem gate_watching {p : Permit} : Interpreter.gate.surroundings.Watching p :=
  ⟨fun _ => trivial, fun _ => trivial, fun _ _ => trivial, fun _ _ => trivial⟩

/-- The first event is ignored, as the game has not begun, and the third one is blocked. -/
def gateEvents : List Event :=
  ["TRIGGER_DIG", "START_GAME", "CONSTRAINT_GATE", "TRIGGER_DIG", "TRIGGER_DIG",
    "CONSTRAINT_GATE"].map fun type => ⟨type, .object []⟩

theorem gate_sendAll_erase :
    ∃ (answers : List Response) (s' t' : Session Nat) (c : Context),
      Interpreter.gate.sendAll 0 gateEvents (Interpreter.gate.start (.idle 0)) =
        some (answers.map .ok, s') ∧
      answers.map Response.event = gateEvents ∧
      Interpreter.gate.sendAll 0 ((answers.filter Response.transitioned).map Response.event)
          (Interpreter.gate.start (.idle 0)) =
        some ((answers.filter Response.transitioned).map .ok, t') ∧
      s'.live = some c ∧ t'.live = some c ∧ s'.edits = t'.edits ∧
      Interpreter.snapshot s' = Interpreter.snapshot t' := by
  exact Interpreter.sendAll_erase (i := .gate) (j := .gate) (s := .idle 0) (t := .idle 0)
    ofValue_gateRules build_gate build_gate rfl trivial rfl rfl gate_watching gate_watching rfl rfl
    rfl rfl rfl 0 gateEvents

end TokenGate
