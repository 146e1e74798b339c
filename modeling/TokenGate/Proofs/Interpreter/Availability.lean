import TokenGate.Proofs.Automaton.Graph
import TokenGate.Proofs.Interpreter.Answers
import TokenGate.Proofs.Interpreter.Regularity

/-!
# What a game accepts

The labels that a game lists as available are exactly those of the events which it does not ignore.
It lists none only before it is started and when it is over; a game that is over ignores all
further events and stays as it is.
-/

namespace TokenGate

variable {σ : Type}

namespace Automaton

/-- There is an edge for exactly the labels of the edges that leave a state. -/
theorem isSome_edge?_iff {a : Automaton} {state : State} {label : String} :
    (a.edge? state label).isSome ↔ label ∈ (a.edgesFrom state).map Edge.label := by
  rw [edge?, List.find?_isSome, List.mem_map]
  simp only [beq_iff_eq]

variable {d : Definition} {a : Automaton}

theorem edgesFrom_phase_eq_nil_iff (hb : build d = .ok a) (p : Phase) :
    a.edgesFrom (.phase p) = [] ↔ p = .ending := by
  rw [edgesFrom_phase hb]
  cases p <;> simp [phaseEdges, baseEdges, Phase.edges]

theorem phase_mem_states (hb : build d = .ok a) (p : Phase) : .phase p ∈ a.states := by
  rw [states_of_build hb]
  exact List.mem_append_left _ (List.mem_map_of_mem p.mem_all)

/-- Every state of the graph but the last phase leads on. -/
theorem edgesFrom_eq_nil_iff (hb : build d = .ok a) {state : State} (h : state ∈ a.states) :
    a.edgesFrom state = [] ↔ state = .phase .ending := by
  rw [states_of_build hb, List.mem_append] at h
  rcases h with h | h
  · obtain ⟨p, -, rfl⟩ := List.mem_map.1 h
    rw [edgesFrom_phase_eq_nil_iff hb, State.phase.injEq]
  · obtain ⟨t, ht, rfl⟩ := List.mem_map.1 h
    obtain ⟨name, -, hes⟩ := tokenEdges_eq (edgesFrom_token hb ht)
    simp [hes]

/-- Nothing leads on from a state in which the game is over. -/
theorem edgesFrom_of_isTerminal (hb : build d = .ok a) {state : State}
    (h : state.isTerminal = true) : a.edgesFrom state = [] := by
  cases state with
  | phase p => exact (edgesFrom_phase_eq_nil_iff hb p).2 (eq_of_beq h)
  | token t => cases h

end Automaton

namespace Interpreter

variable {i : Interpreter σ} {d : Definition}

/-- That a game is over need not be asked when its labels are listed. -/
theorem available_of_live (hb : Automaton.build d = .ok i.automaton) {s : Session σ} {c : Context}
    (hlive : s.live = some c) :
    i.available s = (i.automaton.edgesFrom c.state).map Edge.label := by
  simp only [available, hlive]
  split
  · rename_i terminal
    rw [Automaton.edgesFrom_of_isTerminal hb terminal, List.map_nil]
  · rfl

theorem available_of_not_started {s : Session σ} (hlive : s.live = none) : i.available s = [] := by
  simp only [available, hlive]

theorem nodup_available (hb : Automaton.build d = .ok i.automaton) (s : Session σ) :
    (i.available s).Nodup := by
  cases hlive : s.live with
  | none =>
    rw [available_of_not_started hlive]
    exact List.nodup_nil
  | some c =>
    rw [available_of_live hb hlive]
    exact Automaton.nodup_labels hb c.state

/-- The labels that are listed are those that a dispatch finds an edge for. -/
theorem mem_available_iff (hb : Automaton.build d = .ok i.automaton) {s : Session σ}
    {label : String} : label ∈ i.available s ↔
      ∃ c, s.live = some c ∧ (i.automaton.edge? c.state label).isSome := by
  cases hlive : s.live with
  | none => simp [available_of_not_started hlive]
  | some c => simp [available_of_live hb hlive, Automaton.isSome_edge?_iff]

/-- An event is ignored if there is no edge for it, and for no other reason. -/
theorem outcome_eq_ignored_iff {e : Event} {s s' : Session σ} {r : Response}
    (hd : i.dispatch e s = (.ok r, s')) : r.outcome = .ignored ↔
      ¬ ∃ c, s.live = some c ∧ (i.automaton.edge? c.state e.type).isSome := by
  cases hlive : s.live with
  | none =>
    simp only [dispatch, hlive] at hd
    cases hd
    simp
  | some c =>
    cases hedge : i.automaton.edge? c.state e.type with
    | none =>
      simp only [dispatch, hlive, hedge] at hd
      cases hd
      simp [hedge]
    | some edge =>
      simp only [dispatch, hlive, hedge] at hd
      obtain ⟨-, outcome⟩ := i.follow_answers edge e s r (congrArg Prod.fst hd)
      have taken : r.outcome ≠ .ignored := by
        intro ignored
        rw [ignored] at outcome
        rcases outcome with outcome | outcome <;> cases outcome
      simp [taken, hedge]

theorem outcome_eq_ignored_iff_not_mem (hb : Automaton.build d = .ok i.automaton) {e : Event}
    {s s' : Session σ} {r : Response} (hd : i.dispatch e s = (.ok r, s')) :
    r.outcome = .ignored ↔ e.type ∉ i.available s := by
  rw [outcome_eq_ignored_iff hd, mem_available_iff hb]

/-- A game in a state of the graph lists nothing exactly if it is over. -/
theorem available_eq_nil_iff (hb : Automaton.build d = .ok i.automaton) {s : Session σ}
    (known : ∀ c, s.live = some c → c.state ∈ i.automaton.states) :
    i.available s = [] ↔ s.live = none ∨ ∃ c, s.live = some c ∧ c.state = .phase .ending := by
  cases hlive : s.live with
  | none => simp [available_of_not_started hlive]
  | some c =>
    simp [available_of_live hb hlive, Automaton.edgesFrom_eq_nil_iff hb (known c hlive)]

end Interpreter

/-- A game that is over, with what has been done to data; nothing is going on. -/
structure Session.Over (c : Context) (edits : Edits) (s : Session σ) : Prop where
  live : s.live = some c
  ending : c.state = .phase .ending
  edits : s.edits = edits
  rests : s.AtRest

theorem Session.Over.of_eq {c : Context} {edits : Edits} {s s' : Session σ}
    (h : s.Over c edits) (hl : s'.live = s.live) (hs : s'.edits = s.edits)
    (rests : s'.AtRest) : s'.Over c edits :=
  ⟨hl.trans h.live, h.ending, hs.trans h.edits, rests⟩

namespace Interpreter

variable {i : Interpreter σ} {d : Definition}

/-- The sessions that calls from outside lead to without a new start. -/
inductive Continues (i : Interpreter σ) (s : Session σ) : Session σ → Prop where
  | refl : Continues i s s
  | send {s₁ s₂ : Session σ} {fuel : Nat} {e : Event} {o : Except Fault Response}
      (before : Continues i s s₁) (run : i.send fuel e s₁ = some (o, s₂)) : Continues i s s₂
  | watch {s₁ s₂ : Session σ} {channel : Channel} {name : String} (before : Continues i s s₁)
      (added : s₁.watch? channel name = some s₂) : Continues i s s₂
  | unwatch {s₁ : Session σ} (channel : Channel) (name : String) (before : Continues i s s₁) :
      Continues i s (s₁.unsubscribe channel name)
  | snapshot {s₁ : Session σ} (before : Continues i s s₁) : Continues i s s₁.copied
  | remember {s₁ : Session σ} (change : σ → σ) (before : Continues i s s₁) :
      Continues i s { s₁ with memory := change s₁.memory }

/-- An event that is sent to a game that is over is ignored; nobody but the log is told. -/
theorem send_over (hb : Automaton.build d = .ok i.automaton) {c : Context} {edits : Edits}
    {s : Session σ} (h : s.Over c edits) (e : Event) :
    ∃ s', s'.Over c edits ∧
      ∀ fuel, i.send fuel e s = some (.ok ⟨.ignored, e, Phase.ending.text, .none⟩, s') := by
  have unknown : i.automaton.edge? (.phase .ending) e.type = none := by
    rw [Automaton.edge?, (Automaton.edgesFrom_phase_eq_nil_iff hb .ending).2 rfl, List.find?_nil]
  have live : s.engage.live = some c := h.live
  have ignored : ∃ s', i.dispatch e s.engage = (.ok ⟨.ignored, e, Phase.ending.text, .none⟩, s') ∧
      s'.release.Over c edits := by
    simp only [dispatch, live, h.ending, unknown, State.text]
    exact ⟨_, rfl, h.of_eq rfl rfl ⟨rfl, h.rests.queue, h.rests.detached⟩⟩
  obtain ⟨s', hd, ended⟩ := ignored
  exact ⟨s'.release, ended, fun fuel => i.send_of_dispatch h.rests.idle hd ended.rests.queue⟩

/-- Once a game is over, it stays as it is until it is started anew. -/
theorem Continues.over (hb : Automaton.build d = .ok i.automaton) {c : Context}
    {edits : Edits} {s s' : Session σ} (h : s.Over c edits) (later : i.Continues s s') :
    s'.Over c edits := by
  induction later with
  | refl => exact h
  | @send s₁ s₂ fuel e o _ run ih =>
    obtain ⟨s₂', ended, ignored⟩ := send_over hb ih e
    cases (ignored fuel).symm.trans run
    exact ended
  | @watch s₁ s₂ channel name _ added ih =>
    obtain ⟨c', -, rfl⟩ := Option.map_eq_some_iff.1 added
    have rests : s₁.AtRest := ih.rests
    cases channel <;> exact ih.of_eq rfl rfl ⟨rests.idle, rests.queue, rests.detached⟩
  | @unwatch s₁ channel _ _ ih =>
    have rests : s₁.AtRest := ih.rests
    cases channel <;> exact ih.of_eq rfl rfl ⟨rests.idle, rests.queue, rests.detached⟩
  | snapshot _ ih => exact ih.of_eq rfl rfl ⟨ih.rests.idle, ih.rests.queue, ih.rests.detached⟩
  | remember _ _ ih =>
    exact ih.of_eq rfl rfl ⟨ih.rests.idle, ih.rests.queue, ih.rests.detached⟩

/-- In every session that calls from outside lead to, an event is ignored exactly if its label is
not among the available ones. No label is listed twice, and none is listed only before the game is
started and when it is over. From then on, whatever calls but a new start come, every event is
ignored and the game and its snapshot stay as they are; only the number of the snapshot grows with
every one that is made. -/
theorem availability_of_reachable {integer? : String → Option Int} {v : Value}
    (hd : Definition.ofValue (.data integer?) v = .ok d)
    (hb : Automaton.build d = .ok i.automaton) (limit : i.config.maxHistory.IsWhole)
    (effects : i.surroundings.effects = EffectHandler.usual)
    (hw : i.surroundings.Watching .listening) {s : Session σ} (h : i.Reachable s) :
    (∀ e, ∃ r s', (∀ fuel, i.send fuel e s = some (.ok r, s')) ∧
      (r.outcome = .ignored ↔ e.type ∉ i.available s)) ∧
    (i.available s).Nodup ∧
    (i.available s = [] ↔ s.live = none ∨ ∃ c, s.live = some c ∧ c.state = .phase .ending) ∧
    ∀ c, s.live = some c → c.state = .phase .ending → ∀ s', i.Continues s s' →
      s'.live = s.live ∧ snapshot { s' with copies := s.copies } = snapshot s ∧
      s'.edits = s.edits ∧
      ∀ e, ∃ s'', ∀ fuel,
        i.send fuel e s' = some (.ok ⟨.ignored, e, Phase.ending.text, .none⟩, s'') := by
  have rests := h.rests
  have acting {p : Permit} : i.surroundings.Acting p := Surroundings.acting_of_usual effects
  have handsOff : i.Abides .handsOff := abides_of_watching hd hb acting hw.of_listening
  have steady : i.Abides .steady := abides_of_watching hd hb acting hw.of_listening
  have known (c : Context) (hlive : s.live = some c) : c.state ∈ i.automaton.states := by
    obtain ⟨p, hp⟩ := ((h.regular hb handsOff).game c hlive).phase
    rw [hp]
    exact Automaton.phase_mem_states hb p
  refine ⟨fun e => ?_, nodup_available hb s, available_eq_nil_iff hb known, ?_⟩
  · obtain ⟨r, s', hdispatch, -, hq'⟩ :=
      dispatch_answers (s := s.engage) hd hb limit steady rests.detached rests.queue e
    exact ⟨r, s'.release, fun fuel => send_of_dispatch i rests.idle hdispatch hq',
      outcome_eq_ignored_iff_not_mem (s := s.engage) hb hdispatch⟩
  · intro c hlive ending s' later
    have ended : s'.Over c s.edits := later.over hb ⟨hlive, ending, rfl, rests⟩
    refine ⟨ended.live.trans hlive.symm, ?_, ended.edits, fun e => ?_⟩
    · simp only [snapshot, ended.live, hlive, ended.edits]
    · obtain ⟨s'', -, ignored⟩ := send_over hb ended e
      exact ⟨s'', ignored⟩

end Interpreter

/-- The game of the gate is won after gold has been dug. -/
def wonEvents : List Event :=
  ["START_GAME", "TRIGGER_DIG", "CHECK_WIN", "WIN_CONDITION_MET"].map fun type =>
    ⟨type, .object []⟩

/-- When it has been won, it lists nothing and ignores everything, and its snapshot stays. -/
theorem gate_availability_of_reachable :
    ∃ s, Interpreter.gate.Reachable s ∧ s.stateText = "end" ∧
      (∀ e, ∃ r s', (∀ fuel, Interpreter.gate.send fuel e s = some (.ok r, s')) ∧
        (r.outcome = .ignored ↔ e.type ∉ Interpreter.gate.available s)) ∧
      Interpreter.gate.available s = [] ∧
      ∀ s', Interpreter.gate.Continues s s' →
        s'.live = s.live ∧
        Interpreter.snapshot { s' with copies := s.copies } = Interpreter.snapshot s ∧
        s'.edits = s.edits ∧
        ∀ e, ∃ s'', ∀ fuel, Interpreter.gate.send fuel e s' =
          some (.ok ⟨.ignored, e, Phase.ending.text, .none⟩, s'') := by
  have won : (Interpreter.gate.sendAll 0 wonEvents (Interpreter.gate.start (.idle 0))).map
      (fun run => run.2.live.map Context.state) = some (some (.phase .ending)) := by
    decide +kernel
  obtain ⟨⟨answers, s⟩, hrun, hstate⟩ := Option.map_eq_some_iff.1 won
  obtain ⟨c, hc, ending⟩ := Option.map_eq_some_iff.1 hstate
  have hlive : s.live = some c := hc
  have reached : Interpreter.gate.Reachable s :=
    (Interpreter.Reachable.start (.idle 0)).sendAll hrun
  obtain ⟨listed, -, nothing, ended⟩ := Interpreter.availability_of_reachable (i := .gate)
    ofValue_gateRules build_gate trivial rfl gate_watching reached
  refine ⟨s, reached, ?_, listed, nothing.2 (.inr ⟨c, hlive, ending⟩), ended c hlive ending⟩
  simp only [Session.stateText, hlive, ending]
  rfl

end TokenGate
