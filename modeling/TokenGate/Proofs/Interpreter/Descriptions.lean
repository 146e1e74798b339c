import TokenGate.Proofs.Automaton.Collision
import TokenGate.Proofs.Automaton.Graph
import TokenGate.Proofs.Interpreter.Plain
import TokenGate.Proofs.Interpreter.Chronicle
import TokenGate.Proofs.Interpreter.Conservation

/-!
# Descriptions decide nothing

What only describes a game has no influence on it. Two games whose definitions are the same but for
that answer all events alike, whatever the events are, and tell those who watch the same; only their
logs tell them apart.
-/

namespace TokenGate

open Act

variable {σ κ κ' : Type}

/-- The interpreter with a log that is kept beside what its surroundings remember. -/
def Interpreter.keepingLog (log : Record → κ → κ) (i : Interpreter σ) : Interpreter (σ × κ) where
  automaton := i.automaton
  config := i.config
  surroundings :=
    { log := fun r m => (m.1, log r m.2)
      effects := i.surroundings.effects.map (.tell (Play.beside .none))
      predicate := fun key e => (i.surroundings.predicate key e).beside .none
      onTransition := fun n => (i.surroundings.onTransition n).beside .none
      onRuleLog := fun l => (i.surroundings.onRuleLog l).beside .none
      transitionWatcher := fun name n => (i.surroundings.transitionWatcher name n).beside .none
      logWatcher := fun name l => (i.surroundings.logWatcher name l).beside .none }

/-- What a run shows: the answers to all events in the order in which they were dispatched, those
to the events that were sent, and the session that it leads to, with a snapshot of it and its
digest. -/
structure Showing (σ : Type) where
  transcript : List Response
  answers : List (Except Fault Response)
  session : Session σ
  snapshot : Except Fault Snapshot
  digest : Except Fault String

/-- What a run shows but for the log that is kept beside. -/
def Showing.ofRun (run : List Response × List (Except Fault Response) × Session (σ × κ)) :
    Showing σ where
  transcript := run.1
  answers := run.2.1
  session := run.2.2.mapMemory Prod.fst
  snapshot := Interpreter.snapshot run.2.2
  digest := (Interpreter.snapshot run.2.2).map fun n => n.digest run.2.2.edits

namespace Interpreter

variable {i j : Interpreter σ}

theorem beside_keepingLog (log : Record → κ → κ) (i : Interpreter σ) :
    Beside i.deaf (i.keepingLog log) where
  automaton := rfl
  config := rfl
  log _ _ := rfl

/-- A log that is kept beside changes nothing. -/
theorem keepingLog_follows (log : Record → κ → κ) (i : Interpreter σ) :
    Shadow (i.keepingLog log) i.deaf (Seen (Session.mapMemory Prod.fst) fun _ => True)
      fun _ => False := by
  have h := beside_keepingLog log i
  refine h.follows .none rfl (fun _ _ => rfl) (fun n => ?_) fun l => ?_
  · exact shadows_notify (perform_beside h .none .live _)
      (fun name => perform_beside h .none .live _) fun hR => hR.1 ▸ rfl
  · exact shadows_notifyLog (perform_beside h .none .live _)
      (fun name => perform_beside h .none .live _) fun hR => hR.1 ▸ rfl

section Same

variable {d d' : Definition} (hb : Automaton.build d = .ok i.automaton)
  (hb' : Automaton.build d' = .ok j.automaton) (same : d.plain = d'.plain)
  (config : j.config = i.config) (surroundings : j.surroundings = i.surroundings)

include hb hb' same

/-- Definitions that only describe the game differently are compiled to automata that only do so. -/
theorem plain_automaton_eq : j.automaton.plain = i.automaton.plain := by
  have built := Automaton.build_plain d
  have built' := Automaton.build_plain d'
  rw [hb] at built
  rw [hb', ← same, built] at built'
  exact (Except.ok.inj built').symm

include config surroundings

theorem plain_eq : j.plain = i.plain := by
  have automaton := plain_automaton_eq hb hb' same
  obtain ⟨a, c, s⟩ := i
  obtain ⟨a', c', s'⟩ := j
  cases config
  cases surroundings
  simp only [plain, automaton]

/-- Where nobody remembers the log, the same is done. -/
theorem deaf_dispatch_eq (e : Event) : j.deaf.dispatch e = i.deaf.dispatch e := by
  rw [← j.dispatch_plain e, plain_eq hb hb' same config surroundings, i.dispatch_plain]

theorem deaf_start_eq (s : Session σ) : j.deaf.start s = i.deaf.start s := by
  rw [← j.start_plain s, plain_eq hb hb' same config surroundings, i.start_plain]

/-- A run is seen as one whose log nobody remembers, whatever describes the game. -/
theorem seen_sendAllLog (log : Record → κ → κ) (fuel : Nat) (es : List Event)
    (s : Session (σ × κ)) :
    ((j.keepingLog log).sendAllLog fuel es ((j.keepingLog log).start s)).map
        (fun run => (run.1, run.2.1, run.2.2.mapMemory Prod.fst)) =
      i.deaf.sendAllLog fuel es (i.deaf.start (s.mapMemory Prod.fst)) := by
  have follows (e : Event) {s : Session (σ × κ)} (_ : True) :
      Mirrors (Session.mapMemory Prod.fst) (fun _ => True) s ((j.keepingLog log).dispatch e)
        (i.deaf.dispatch e) := by
    rw [← deaf_dispatch_eq hb hb' same config surroundings]
    exact (keepingLog_follows log j).dispatch_mirrors e trivial
  rw [← deaf_start_eq hb hb' same config surroundings]
  exact (sendAllLog_mirrors follows (keepsSending_mapMemory Prod.fst) fuel es
    (s := (j.keepingLog log).start s) trivial).symm

theorem showing_keepingLog (log : Record → κ → κ) (log' : Record → κ' → κ')
    {s : Session (σ × κ)} {t : Session (σ × κ')}
    (alike : t.mapMemory Prod.fst = s.mapMemory Prod.fst) (fuel : Nat) (es : List Event) :
    ((j.keepingLog log').sendAllLog fuel es ((j.keepingLog log').start t)).map Showing.ofRun =
      ((i.keepingLog log).sendAllLog fuel es ((i.keepingLog log).start s)).map Showing.ofRun := by
  have shown {κ : Type} : (Showing.ofRun : _ × _ × Session (σ × κ) → Showing σ) =
      (fun run => ⟨run.1, run.2.1, run.2.2, snapshot run.2.2,
        (snapshot run.2.2).map fun n => n.digest run.2.2.edits⟩) ∘
      fun run => (run.1, run.2.1, run.2.2.mapMemory Prod.fst) := rfl
  rw [shown, shown, ← Option.map_map, ← Option.map_map,
    seen_sendAllLog hb hb' same config surroundings, seen_sendAllLog hb hb rfl rfl rfl, alike]

end Same

section Trigger

variable {d : Definition} (hb : Automaton.build d = .ok i.automaton) {t : Trigger}

include hb

/-- A trigger grants its tokens, whatever describes it. -/
theorem ledger_of_trigger (limit : i.config.maxHistory.IsWhole)
    (hw : i.surroundings.Watching Permit.ledgerKeeping.calm) (ht : t ∈ d.triggers) {e : Event}
    (hlabel : EventName.label ⟨.trigger, t.event⟩ = .ok e.type) {s : Session σ} {c : Context}
    (live : s.live = some c) (detached : s.detached = none) (main : c.state = .phase .main) :
    ∃ s' c', i.dispatch e s = (.ok ⟨.transitioned, e, c'.state.text, .none⟩, s') ∧
      s'.live = some c' ∧ c'.ledger = c.ledger.grantBag t.grants := by
  have hs : s.Running := Session.running_of_live live detached
  have current : s.current = c := Option.some.inj (hs.current_eq.symm.trans live)
  have found := Automaton.edge?_of_rule hb (Definition.trigger_mem_rules.2 ht) hlabel
  rw [← main, ← current] at found
  have dispatched := i.dispatch_trigger (q := .ledgerKeeping) id hw limit hs found rfl
  unfold Ensures at dispatched
  generalize i.dispatch e s = result at dispatched ⊢
  obtain ⟨o, s'⟩ := result
  obtain ⟨ho, s₁, kept, granted, moved⟩ := dispatched
  refine ⟨s', s'.current, Prod.ext ho rfl, moved.running.current_eq, ?_⟩
  rw [moved.ledger_eq, granted.running.current_modifyCurrent, granted.ledger_eq,
    hs.ledger_withLedger, current]

end Trigger

/-- Two definitions that differ only in what describes the game make the same of every list of
events: the answers, the games with their snapshots and digests, and what the observer and all
watchers are told, in order; only the logs tell them apart. Each session has data of its own, so
that nothing is done to that of one in the course of the other. And a trigger grants its
tokens whatever its condition comes to, as long as those who watch leave the ledger alone. -/
theorem showing_of_plain {d d' : Definition} (hb : Automaton.build d = .ok i.automaton)
    (hb' : Automaton.build d' = .ok j.automaton) (same : d.plain = d'.plain)
    (config : j.config = i.config) (surroundings : j.surroundings = i.surroundings) :
    (∀ (log : Record → κ → κ) (log' : Record → κ' → κ') (s : Session ((σ × List Telling) × κ))
      (s' : Session ((σ × List Telling) × κ')), s'.mapMemory Prod.fst = s.mapMemory Prod.fst →
      ∀ fuel es,
        let here := i.recording.keepingLog log
        let there := j.recording.keepingLog log'
        (there.sendAllLog fuel es (there.start s')).map Showing.ofRun =
          (here.sendAllLog fuel es (here.start s)).map Showing.ofRun) ∧
    (i.config.maxHistory.IsWhole → i.surroundings.Watching Permit.ledgerKeeping.calm →
      ∀ t ∈ d.triggers, ∀ e, EventName.label ⟨.trigger, t.event⟩ = .ok e.type →
      ∀ (s : Session σ) (c : Context), s.live = some c → s.detached = none →
        c.state = .phase .main →
        ∃ s' c', i.dispatch e s = (.ok ⟨.transitioned, e, c'.state.text, .none⟩, s') ∧
          s'.live = some c' ∧ c'.ledger = c.ledger.grantBag t.grants) := by
  have recording : j.recording.surroundings = i.recording.surroundings := by
    simp only [Interpreter.recording, surroundings]
  refine ⟨fun log log' s s' alike fuel es => ?_, fun limit hw t ht e hlabel s c => ?_⟩
  · exact showing_keepingLog (i := i.recording) (j := j.recording) hb hb' same config recording
      log log' alike fuel es
  · exact ledger_of_trigger hb limit hw ht hlabel

end Interpreter

/-- The game of the mine in other words; what its trigger says never holds. -/
def Definition.pit : Definition where
  name := "pit"
  players := 3
  initial := []
  triggers :=
    [⟨"dig", some ⟨"false", .literal (.bool false)⟩, some "shovel",
      .ofWords ["gold", "gold", "gold"]⟩]
  actions := [⟨"buy", none, some "evening", .ofWords ["gold"]⟩]
  constraints :=
    [⟨"toll", .condition ⟨"true", .literal (.bool true)⟩, some "pay first", .ofWords ["gold"]⟩]

/-- The game in other words in the surroundings of the mine. -/
def Interpreter.pit : Interpreter Unit :=
  { Interpreter.mine with
    automaton := (Automaton.build .pit).toOption.getD ⟨.pit, [], [], []⟩ }

/-- A log that keeps all records. -/
def Record.addTo (r : Record) (log : List Record) : List Record := log ++ [r]

/-- Gold is dug, tools are bought and toll is paid alike in both games, and it is dug though what
the trigger says does not hold. Their logs are not alike. -/
theorem pit_showing_of_plain :
    ∃ here there,
      let pit := Interpreter.pit.recording.keepingLog Record.addTo
      let mine := Interpreter.mine.recording.keepingLog Record.addTo
      let idle : Session ((Unit × List Telling) × List Record) := .idle (((), []), [])
      pit.sendAllLog 2 mineEvents (pit.start idle) = some here ∧
      mine.sendAllLog 2 mineEvents (mine.start idle) = some there ∧
      Showing.ofRun there = Showing.ofRun here ∧ there.2.2.memory.2 ≠ here.2.2.memory.2 ∧
      (∀ t ∈ Definition.pit.triggers, ∀ cond ∈ t.condition, ∀ scope, cond.holds scope = false) ∧
      ∀ (s : Session Unit) (c : Context), s.live = some c → s.detached = none →
        c.state = .phase .main →
        ∃ s' c', Interpreter.pit.dispatch ⟨"TRIGGER_DIG", .object []⟩ s =
            (.ok ⟨.transitioned, ⟨"TRIGGER_DIG", .object []⟩, c'.state.text, .none⟩, s') ∧
          s'.live = some c' ∧
          c'.ledger = c.ledger.grantBag (.ofWords ["gold", "gold", "gold"]) := by
  let pit := Interpreter.pit.recording.keepingLog Record.addTo
  let mine := Interpreter.mine.recording.keepingLog Record.addTo
  let idle : Session ((Unit × List Telling) × List Record) := .idle (((), []), [])
  have begins : (pit.sendAllLog 2 mineEvents (pit.start idle)).map
      (fun run => run.2.2.memory.2.head?.map Record.message) =
        some (some "Started 'pit' with tokens ['gold']") := by
    decide +kernel
  have begins' : (mine.sendAllLog 2 mineEvents (mine.start idle)).map
      (fun run => run.2.2.memory.2.head?.map Record.message) =
        some (some "Started 'mine' with tokens ['gold']") := by
    decide +kernel
  obtain ⟨here, hrun, hbegins⟩ := Option.map_eq_some_iff.1 begins
  obtain ⟨there, hrun', hbegins'⟩ := Option.map_eq_some_iff.1 begins'
  have built : Automaton.build .pit = .ok Interpreter.pit.automaton := rfl
  have built' : Automaton.build .mine = .ok Interpreter.mine.automaton := rfl
  obtain ⟨showing, granted⟩ := Interpreter.showing_of_plain built built' rfl rfl rfl
  refine ⟨here, there, hrun, hrun', ?_, fun same => ?_, ?_, ?_⟩
  · have shown : (mine.sendAllLog 2 mineEvents (mine.start idle)).map Showing.ofRun =
        (pit.sendAllLog 2 mineEvents (pit.start idle)).map Showing.ofRun :=
      showing Record.addTo Record.addTo idle idle rfl 2 mineEvents
    rw [hrun, hrun'] at shown
    exact Option.some.inj shown
  · rw [same, hbegins] at hbegins'
    exact absurd hbegins' (by decide)
  · intro t ht cond hcond scope
    cases List.mem_singleton.1 ht
    cases hcond
    rfl
  · exact granted trivial (mine_watching trivial) _ List.mem_cons_self _ rfl

end TokenGate
