import Mathlib.Data.List.Chain
import TokenGate.Proofs.Interpreter.Chronicle
import TokenGate.Proofs.Interpreter.Dispatching
import TokenGate.Proofs.Interpreter.Flattening

/-!
# One stream of notices

All who watch the transitions of a game are told of the same ones in the same order, namely of each
event that has moved the game on, as long as nobody but the interpreter writes the state of the
game. What they are shown is the game right after the event, also if others have sent events when
they were told before. From one notice to the next there is no gap.
-/

namespace TokenGate

open Act

variable {σ : Type}

/-- A game that has just been started, whoever may watch it by now. -/
structure Session.Opened (i : Interpreter σ) (s : Session σ) : Prop where
  live : s.live = some (.fresh s.games i.automaton.tokenTypes i.automaton.definition.initial)
  detached : s.detached = none

theorem Session.opened_start (i : Interpreter σ) (s : Session σ) : (i.start s).Opened i := ⟨rfl, rfl⟩

theorem Session.Opened.watch {i : Interpreter σ} {s s' : Session σ} (h : s.Opened i)
    {channel : Channel} {name : String} (added : s.watch? channel name = some s') :
    s'.Opened i := by
  obtain ⟨c, -, rfl⟩ := Option.map_eq_some_iff.1 added
  cases channel <;> exact ⟨h.live, h.detached⟩

/-- A notice tells of the move that an event has brought about, and shows the game as it is right
after that, in the snapshot that was to be made next. -/
structure Notice.Shows (n : Notice) (limit : HistoryLimit) (e : Event) (s s' : Session σ) :
    Prop where
  event : n.event = e
  previous : n.previous = s.current.state.text
  state : n.state = n.context.state
  context : n.context = s'.current.snapshot s'.edits s.copies
  history : (∀ k, limit = .atMost k → 0 < k) → n.context.history.getLast? = some e

/-- In the course of a dispatch all are told of a transition if the event has moved the game on, and
of none if it has not. -/
structure Interpreter.Notifies (i : Interpreter σ) (e : Event) (s : Session (σ × List Telling))
    (c : Chapter) (s' : Session (σ × List Telling)) : Prop where
  answered : i.recording.dispatch e s = (c.answer, s')
  informed : s.Informs i.surroundings c.rounds s'
  moved : ∀ r, c.answer = .ok r → r.outcome = .transitioned →
    ∃ n, c.notices = [n] ∧ n.Shows i.config.maxHistory e s s' ∧ r.state = n.state
  stayed : (∀ r, c.answer = .ok r → r.outcome ≠ .transitioned) →
    c.notices = [] ∧ s'.current.state = s.current.state

/-- Everything is permitted but a new start and a change of the state. -/
abbrev Permit.stateKeeping : Permit := .keeping Context.state

theorem Automaton.upholds_state (a : Automaton) (state : State) :
    a.Upholds .stateKeeping fun c => c.state = state where
  changes same h := same.trans h
  fresh starts := starts.elim
  applied _ h := h
  grant _ h := h
  charge _ h _ := h

namespace Interpreter

variable {i : Interpreter σ} {p : Permit} {e : Event}

/-- With a record, the surroundings keep to the same permits. -/
theorem recording_abides (sends : p.sends) (hw : i.surroundings.Watching .attending)
    (ha : i.surroundings.Acting p) (hj : i.surroundings.Judging p) : i.recording.Abides p where
  watching := by
    have hearing {x : Play σ Unit} (hx : x.Within .attending) (hearer : Option String) (m : Message) :
        (x.hearing hearer m).Within p :=
      Play.within_beside .none (hx.weaken (Permit.attending_below sends) fun _ => False.elim)
    exact ⟨fun n => hearing (hw.onTransition n) _ _, fun l => hearing (hw.onRuleLog l) _ _,
      fun name n => hearing (hw.transitionWatcher name n) _ _,
      fun name l => hearing (hw.logWatcher name l) _ _⟩
  acting := by
    intro name play hplay payload
    obtain ⟨x, heffect, rfl⟩ := custom_of_recording hplay
    exact Play.within_beside .none (ha.failing name x heffect payload)
  judging {_ key} _ _ e := Play.within_beside .none (hj key e)

/-- The rounds of a rule are about the rule. -/
theorem Announces.notices_eq_nil {q : Permit} {edge : Edge} {s s' : Session (σ × List Telling)}
    {rounds : List Round} {o : Except Fault (Except Fault Progress)}
    (h : i.Announces q e edge s o rounds s') :
    (rounds.filterMap fun r => r.message.notice?) = [] := by
  cases h <;> rfl

/-- There are as many notices as events that have moved the game on, about the same events and the
same states. -/
theorem Notifies.told {s s' : Session (σ × List Telling)} {c : Chapter}
    (h : i.Notifies e s c s') :
    (c.notices.map fun n => (n.event, n.state)) =
      ((Chapter.answers [c]).filter Response.transitioned).map fun r => (r.event, r.state) := by
  obtain ⟨o, rounds⟩ := c
  cases o with
  | error f =>
    obtain ⟨silent, -⟩ := h.stayed nofun
    rw [silent]
    rfl
  | ok r =>
    have answers : Chapter.answers [⟨.ok r, rounds⟩] = [r] := rfl
    rw [answers]
    by_cases transitioned : r.outcome = .transitioned
    · obtain ⟨n, hn, shows, state⟩ := h.moved r rfl transitioned
      have event : r.event = e := event_of_dispatch _ h.answered
      have kept : Response.transitioned r = true := by simp [Response.transitioned, transitioned]
      rw [hn, List.filter_singleton, kept, cond_true, List.map_singleton, List.map_singleton, event,
        state, shows.event]
    · obtain ⟨silent, -⟩ := h.stayed fun r' hr => by
        cases hr
        exact transitioned
      have dropped : Response.transitioned r = false := by simp [Response.transitioned, transitioned]
      rw [silent, List.filter_singleton, dropped]
      rfl

theorem chronicle_told {s s' : Session (σ × List Telling)} {chapters : List Chapter}
    (h : Chronicle i.Notifies s chapters s') :
    ((chapters.flatMap Chapter.notices).map fun n => (n.event, n.state)) =
      ((Chapter.answers chapters).filter Response.transitioned).map
        fun r => (r.event, r.state) := by
  induction h with
  | done s => rfl
  | between queue dispatching _ ih => exact ih
  | @dispatched _ _ _ _ c chapters first _ ih =>
    have split : Chapter.answers (c :: chapters) =
        Chapter.answers [c] ++ Chapter.answers chapters := List.filterMap_append (l := [c])
    rw [List.flatMap_cons, List.map_append, ih, first.told, split, List.filter_append,
      List.map_append]

/-- The first notice leads on from the state in which the run begins, and each of the others from
the state that the one before has led to. -/
theorem chronicle_linked {s s' : Session (σ × List Telling)} {chapters : List Chapter}
    (h : Chronicle i.Notifies s chapters s') :
    (∀ n ∈ (chapters.flatMap Chapter.notices).head?, n.previous = s.current.state.text) ∧
      (chapters.flatMap Chapter.notices).IsChain fun n n' => n'.previous = n.state := by
  induction h with
  | done s => exact ⟨nofun, .nil⟩
  | between queue dispatching _ ih => exact ih
  | @dispatched e s s₁ _ c chapters first _ ih =>
    obtain ⟨next, chain⟩ := ih
    rw [List.flatMap_cons]
    by_cases moved : ∃ r, c.answer = .ok r ∧ r.outcome = .transitioned
    · obtain ⟨r, answer, transitioned⟩ := moved
      obtain ⟨n, hn, shows, -⟩ := first.moved r answer transitioned
      have reached : n.state = s₁.current.state.text := by
        rw [shows.state, shows.context]
        rfl
      rw [hn, List.singleton_append]
      refine ⟨fun n' hn' => ?_, List.isChain_cons.2 ⟨fun n' hn' => ?_, chain⟩⟩
      · cases hn'
        exact shows.previous
      · rw [reached]
        exact next n' hn'
    · obtain ⟨silent, same⟩ := first.stayed fun r answer transitioned =>
        moved ⟨r, answer, transitioned⟩
      rw [silent, List.nil_append]
      rw [same] at next
      exact ⟨next, chain⟩

section Run

variable (hw : i.surroundings.Watching .attending) (ha : i.surroundings.Acting .stateKeeping)
  (hj : i.surroundings.Judging .stateKeeping)

include hw ha hj

/-- The handling of a rule leaves the state as it is. -/
theorem handle_state {edge : Edge} {state : State}
    (found : i.automaton.edge? state e.type = some edge) {s : Session (σ × List Telling)}
    (hs : s.Running) :
    (i.recording.handle edge e).Ensures s fun _ s' =>
      s'.Running ∧ s'.current.state = s.current.state := by
  have abides := recording_abides (p := .stateKeeping) trivial hw ha hj
  have held : s.Holds .stateKeeping fun c => c.state = s.current.state :=
    .of_live hs.current_eq hs.detached rfl fun hn => absurd trivial hn
  have kept := handle_keeps abides (i.automaton.upholds_state s.current.state) found s held
  refine kept.mono ?_
  rintro o s' ⟨h, -⟩
  exact ⟨⟨h.started, h.attached id⟩, h.current⟩

theorem dispatch_notifies (limit : i.config.maxHistory.IsWhole) {s : Session (σ × List Telling)}
    (hs : s.Running) :
    (i.recording.dispatch e).Ensures s fun o s' =>
      s'.Running ∧ ∃ rounds, i.Notifies e s ⟨o, rounds⟩ s' := by
  have recounts := dispatch_recounts hw hj limit (e := e) (s := s)
  have kept {edge : Edge} {state : State} {o : Except Fault (Except Fault Progress)}
      {s₁ : Session (σ × List Telling)} (found : i.automaton.edge? state e.type = some edge)
      (handled : i.recording.handle edge e s = (o, s₁)) :
      s₁.Running ∧ s₁.current.state = s.current.state := by
    have handling := handle_state hw ha hj found hs
    rwa [Ensures, handled] at handling
  unfold Ensures at recounts ⊢
  generalize hd : i.recording.dispatch e s = result at recounts
  obtain ⟨o, s'⟩ := result
  obtain ⟨rounds, recounts⟩ := recounts
  have informed := recounts.informs
  cases recounts with
  | ignored unknown =>
    refine ⟨⟨hs.live, hs.detached⟩, [], hd, informed, fun r hr moved => ?_, fun _ => ⟨rfl, rfl⟩⟩
    cases hr
    cases moved
  | @followed _ edge _ _ _ s₁ s₂ _ found handled announced moved _ =>
    obtain ⟨h₁, state⟩ := kept found handled
    have advanced := h₁.modifyCurrent fun _ => s₁.current.advance edge e i.config.maxHistory
    have running : s₂.Running := ⟨moved.live ▸ advanced.live, moved.detached.trans advanced.detached⟩
    have current : s₂.current = s₁.current.advance edge e i.config.maxHistory :=
      moved.current.trans (h₁.current_modifyCurrent _)
    have edits : s₂.edits = s₁.edits :=
      moved.edits.trans (s₁.edits_modifyCurrent _)
    have copies : s₁.copies = s.copies := by
      have handling := copies_handle (i := i.recording) found s
      rwa [Ensures, handled] at handling
    rw [running.detached_eq] at hd informed ⊢
    refine ⟨running, _, hd, informed, fun r hr _ => ?_, fun other => ?_⟩
    · cases hr
      refine ⟨s₁.notice edge e i.config.maxHistory, ?_, ?_, ?_⟩
      · rw [Chapter.notices, List.filterMap_append, announced.notices_eq_nil]
        rfl
      · refine ⟨rfl, congrArg State.text state, rfl, ?_, fun room => ?_⟩
        · rw [current, edits, ← copies]
          rfl
        · exact HistoryLimit.getLast?_cut limit room _ _
      · rw [current]
        rfl
    · exact absurd rfl (other _ rfl)
  | @blocked _ _ _ _ _ message s₁ _ found handled announced =>
    obtain ⟨h₁, state⟩ := kept found handled
    have running : (i.recording.report logger .info message s₁).Running := ⟨h₁.live, h₁.detached⟩
    rw [running.detached_eq] at hd informed ⊢
    refine ⟨running, _, hd, informed, fun r hr moved => ?_, fun _ => ⟨?_, state⟩⟩
    · cases hr
      cases moved
    · exact announced.notices_eq_nil
  | failed _ found handled announced =>
    obtain ⟨h₁, state⟩ := kept found handled
    rw [h₁.detached_eq] at hd informed ⊢
    refine ⟨h₁, _, hd, informed, fun r hr => ?_, fun _ => ⟨announced.notices_eq_nil, state⟩⟩
    cases hr

/-- All who watch the transitions of a game that has just been started are told of the same ones in
the same order, whatever events are sent to it and are sent by those who watch. The observer is told
of each transition once, and a watcher that nobody adds or removes meanwhile as often as it has been
added. These are the moves of the game, each with the event that has brought it about and the game
as it was right after that. The first one leaves the first phase, and each of the others leaves the
state that the one before has led to. -/
theorem notices_of_run (limit : i.config.maxHistory.IsWhole) {s : Session σ} (opened : s.Opened i)
    {fuel : Nat} {es : List Event} {log : List Response} {answers : List (Except Fault Response)}
    {s' : Session σ} (hrun : i.sendAllLog fuel es s = some (log, answers, s')) :
    ∃ chapters r', i.recording.sendAllLog fuel es s.unrecorded = some (log, answers, r') ∧
      r'.mapMemory Prod.fst = s' ∧ Chronicle i.Notifies s.unrecorded chapters r' ∧
      Chapter.answers chapters = log ∧
      let notices := chapters.flatMap Chapter.notices
      r'.notices none = notices ∧
      (∀ name, i.surroundings.LeaveAlone .transitions name →
        r'.notices (some name) =
          notices.flatMap (List.replicate (s.transitionWatchers.count name))) ∧
      (notices.map fun n => (n.event, n.state)) =
        ((log.filter Response.transitioned).map fun r => (r.event, r.state)) ∧
      (∀ n ∈ notices.head?, n.previous = "setup") ∧
      notices.IsChain fun n n' => n'.previous = n.state := by
  obtain ⟨r', recorded, seen⟩ := recording_sendAllLog hrun
  have running : s.unrecorded.Running := Session.running_of_live opened.live opened.detached
  have begun : s.unrecorded.current.state = .initial := by
    rw [Option.some.inj (running.current_eq.symm.trans opened.live)]
    rfl
  have turns {s : Session (σ × List Telling)} (hs : s.Running) (queue : List Event)
      (dispatching : Bool) : { s with queue := queue, dispatching := dispatching }.Running :=
    ⟨hs.live, hs.detached⟩
  obtain ⟨chapters, chronicle, hlog⟩ := Chronicle.of_sendAllLog turns
    (fun e s hs => dispatch_notifies hw ha hj limit hs) running recorded
  have informed := chronicle.informs fun told => told.informed
  have all : ((chapters.flatMap Chapter.rounds).filterMap fun r => r.message.notice?) =
      chapters.flatMap Chapter.notices := List.filterMap_flatMap
  obtain ⟨first, chain⟩ := chronicle_linked chronicle
  refine ⟨chapters, r', recorded, seen, chronicle, hlog, ?_, fun name alone => ?_, ?_, ?_, chain⟩
  · rw [Session.notices_observer informed, all]
  · rw [Session.notices_watcher informed alone, all]
  · rw [← hlog]
    exact chronicle_told chronicle
  · rw [begun] at first
    exact first

end Run

/-- Nobody in the hasty game adds or removes a watcher. -/
theorem hasty_leaveAlone (channel : Channel) (name : String) :
    hasty.surroundings.LeaveAlone channel name where
  effects effect play hplay := absurd hplay (Surroundings.get?_ne_custom_of_usual rfl effect play)
  predicate _ _ := trivial
  onTransition n := by
    show Play.LeavesAlone _ _ (if n.event.type = "START_GAME" then _ else _)
    split
    · exact fun _ _ => trivial
    · intro c _
      show Play.LeavesAlone _ _ (if c.turn = 3 then _ else _)
      split
      · exact fun _ => trivial
      · trivial
  onRuleLog _ := trivial
  transitionWatcher _ _ := trivial
  logWatcher _ _ := trivial

/-- The observer of the hasty game sends events when it is told that the game has begun. A watcher
is told of that after it, and yet of all transitions in the same order. -/
theorem hasty_notices_of_run :
    ∃ s log answers s' chapters r',
      (hasty.start (.idle ())).watch? .transitions "near" = some s ∧
      hasty.sendAllLog 4 [⟨"START_GAME", .null⟩] s = some (log, answers, s') ∧
      hasty.recording.sendAllLog 4 [⟨"START_GAME", .null⟩] s.unrecorded =
        some (log, answers, r') ∧
      Chronicle hasty.Notifies s.unrecorded chapters r' ∧
      r'.notices none = chapters.flatMap Chapter.notices ∧
      r'.notices (some "near") = r'.notices none ∧
      ((r'.notices none).map fun n => (n.previous, n.state)) =
        [("setup", "main"), ("main", "main"), ("main", "main"), ("main", "checking_win")] := by
  let s := (hasty.start (.idle ())).subscribe .transitions "near"
  have watched : (hasty.start (.idle ())).watch? .transitions "near" = some s := rfl
  have ends : (hasty.sendAllLog 4 [⟨"START_GAME", .null⟩] s).isSome = true := by decide +kernel
  have shown : (hasty.recording.sendAllLog 4 [⟨"START_GAME", .null⟩] s.unrecorded).map
      (fun run => (run.2.2.notices none).map fun n => (n.previous, n.state)) =
        some [("setup", "main"), ("main", "main"), ("main", "main"), ("main", "checking_win")] := by
    decide +kernel
  obtain ⟨⟨log, answers, s'⟩, hrun⟩ := Option.isSome_iff_exists.1 ends
  obtain ⟨chapters, r', recorded, -, chronicle, -, observer, watcher, -⟩ :=
    notices_of_run (i := hasty) (hasty_watching trivial) (Surroundings.acting_of_usual rfl)
      (fun _ _ => trivial) trivial ((Session.opened_start hasty (.idle ())).watch watched) hrun
  have single := watcher "near" (hasty_leaveAlone _ _)
  refine ⟨s, log, answers, s', chapters, r', watched, hrun, recorded, chronicle, observer, ?_, ?_⟩
  · rw [single, observer]
    exact List.flatMap_singleton' _
  · rw [recorded] at shown
    exact Option.some.inj shown

end Interpreter
end TokenGate
