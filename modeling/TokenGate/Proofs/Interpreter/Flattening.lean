import TokenGate.Proofs.Interpreter.MirrorRun
import TokenGate.Proofs.Play.Relay

/-!
# Nested events

An event that is sent while another one is being handled waits, and whoever sends it learns no
more than that. So it makes no difference whether it is sent then or afterwards: a run with nested
events is the run in which these are sent one after another when the first is done, by someone
else.
-/

namespace TokenGate

open Act

variable {σ α : Type}

/-- Everything is permitted but a new start. -/
def Permit.unstarted : Permit where
  fails _ := True
  sends := True
  starts := False
  changes _ _ := True
  refl _ := trivial
  trans _ _ := trivial

/-- A session with notes seen without them, and with the events that wait if these are kept. -/
def Session.seen (keep : Bool) (s : Session (σ × List Nested)) : Session σ where
  live := s.live
  detached := s.detached
  queue := if keep then s.queue else []
  dispatching := s.dispatching
  transitionWatchers := s.transitionWatchers
  logWatchers := s.logWatchers
  edits := s.edits
  games := s.games
  copies := s.copies
  memory := s.memory.1

/-- A session whose notes begin with the given ones. -/
def Session.noted (s : Session σ) (notes : List Nested) : Session (σ × List Nested) where
  live := s.live
  detached := s.detached
  queue := s.queue
  dispatching := s.dispatching
  transitionWatchers := s.transitionWatchers
  logWatchers := s.logWatchers
  edits := s.edits
  games := s.games
  copies := s.copies
  memory := (s.memory, notes)

/-- A relation between the events that wait and the notes that is kept by sending an event. -/
def Keeping (P : List Event → List Nested → Prop) : Prop :=
  ∀ queue notes, P queue notes → ∀ e c s,
    P (queue ++ [e]) (notes ++ [⟨e, .deferral e c.state.text, (c, s), (c, s)⟩])

/-- A running session with such a relation, in which an event is being dispatched. -/
structure Session.Noted (P : List Event → List Nested → Prop) (s : Session (σ × List Nested)) :
    Prop where
  running : s.Running
  busy : s.dispatching = true
  notes : P s.queue s.memory.2

namespace Stage

def seen (keep : Bool) (g : Stage (σ × List Nested)) : Stage σ := ⟨g.session.seen keep, g.hold⟩

structure Noted (P : List Event → List Nested → Prop) (g : Stage (σ × List Nested)) : Prop where
  present : g.Present
  busy : g.session.dispatching = true
  notes : P g.session.queue g.session.memory.2

theorem game_seen (keep : Bool) (g : Stage (σ × List Nested)) : (g.seen keep).game = g.game := by
  obtain ⟨s, hold⟩ := g
  cases hold <;> rfl

theorem game_queue (g : Stage σ) (queue : List Event) :
    { g with session.queue := queue }.game = g.game := by
  obtain ⟨s, hold⟩ := g
  cases hold <;> rfl

theorem alter_seen (keep : Bool) (g : Stage (σ × List Nested))
    (change : Context × Edits → Context × Edits) :
    (g.alter change).seen keep = (g.seen keep).alter change := by
  obtain ⟨⟨live, detached, queue, dispatching, watchers, logWatchers, edits, games, copies, memory⟩,
    hold⟩ := g
  cases hold with
  | current => cases detached <;> rfl
  | live => rfl
  | left c => rfl

theorem queue_alter (g : Stage σ) (change : Context × Edits → Context × Edits) :
    (g.alter change).session.queue = g.session.queue ∧
      (g.alter change).session.dispatching = g.session.dispatching ∧
      (g.alter change).session.memory = g.session.memory := by
  obtain ⟨⟨live, detached, queue, dispatching, watchers, logWatchers, edits, games, copies, memory⟩,
    hold⟩ := g
  cases hold with
  | current => cases detached <;> exact ⟨rfl, rfl, rfl⟩
  | live => exact ⟨rfl, rfl, rfl⟩
  | left c => exact ⟨rfl, rfl, rfl⟩

/-- A play may be about what it likes, as long as the events that wait and the notes stay. -/
theorem Noted.of_eq {P : List Event → List Nested → Prop} {g g' : Stage (σ × List Nested)}
    (hg : g.Noted P) (hpresent : g'.Present) (hqueue : g'.session.queue = g.session.queue)
    (hbusy : g'.session.dispatching = g.session.dispatching)
    (hnotes : g'.session.memory.2 = g.session.memory.2) : g'.Noted P :=
  ⟨hpresent, hbusy.trans hg.busy, by rw [hqueue, hnotes]; exact hg.notes⟩

end Stage

namespace Interpreter

variable (i : Interpreter σ) {P : List Event → List Nested → Prop}

theorem make_mirrors (hP : Keeping P) (keep : Bool) {x : Play σ α} (hx : x.Within .unstarted)
    {g : Stage (σ × List Nested)} (hg : g.Noted P) :
    Mirrors (Stage.seen keep) (Stage.Noted P) g (i.noting.make x.noting)
      ((i.relay keep).make (x.relay keep)) := by
  induction x generalizing g with
  | done a => exact ⟨rfl, hg⟩
  | fail f => exact ⟨rfl, hg⟩
  | consult next ih => exact ih _ (hx _) hg
  | remember change next ih =>
    let g' : Stage (σ × List Nested) :=
      { g with session.memory := (change g.session.memory.1, g.session.memory.2) }
    have hg' : g'.Noted P :=
      hg.of_eq ⟨⟨hg.present.running.live, hg.present.running.detached⟩, hg.present.hold⟩ rfl rfl rfl
    exact ih hx hg'
  | look next ih =>
    have hnext := ih g.game g.session.edits (hx _ _) hg
    simp only [Mirrors, relay, Play.relay, Play.noting, make, g.game_seen keep] at hnext ⊢
    exact hnext
  | lookLive next ih => exact ih (g.session.live.getD default) g.session.edits (hx _ _) hg
  | send e next ih =>
    have text := hg.present.stateText_eq
    let g' : Stage (σ × List Nested) :=
      { g with
        session.queue := g.session.queue ++ [e]
        session.memory := (g.session.memory.1, g.session.memory.2 ++
          [⟨e, .deferral e g.game.state.text, (g.game, g.session.edits),
            (g.game, g.session.edits)⟩]) }
    have hg' : g'.Noted P :=
      ⟨⟨⟨hg.present.running.live, hg.present.running.detached⟩, hg.present.hold⟩, hg.busy,
        hP _ _ hg.notes e g.game g.session.edits⟩
    have hnext := ih (.deferral e g.game.state.text) (hx.2 _) hg'
    have noted : i.noting.make (Play.send e next).noting g =
        i.noting.make (next (.deferral e g.game.state.text)).noting g' := by
      have waits := make_send_of_dispatching (i := i.noting) (e := e)
        (k := fun r => .look fun c s =>
          .remember (fun m => (m.1, m.2 ++ [⟨e, r, (g.game, g.session.edits), (c, s)⟩]))
            (next r).noting) hg.busy
      refine Eq.trans waits ?_
      simp only [make, g.game_queue, text]
      rfl
    have told : (i.relay keep).make ((Play.send e next).relay keep) (g.seen keep) =
        (i.relay keep).make ((next (.deferral e g.game.state.text)).relay keep) (g'.seen keep) := by
      cases keep with
      | true =>
        have waits := make_send_of_dispatching (i := i.relay true) (e := e)
          (k := fun r => (next r).relay true) (g := g.seen true) hg.busy
        refine Eq.trans waits ?_
        show (i.relay true).make ((next (.deferral e g.session.stateText)).relay true) _ = _
        rw [text]
        rfl
      | false =>
        show (i.relay false).make
          ((next (.deferral e (g.seen false).game.state.text)).relay false) _ = _
        rw [g.game_seen]
        rfl
    unfold Mirrors at hnext ⊢
    rw [told, noted]
    exact hnext
  | start next ih => exact hx.1.elim
  | alter change next ih =>
    have hpass : g.Passes .unstarted (g.alter change) := hg.present.passes_alter fun _ => trivial
    obtain ⟨hqueue, hbusy, hmemory⟩ := g.queue_alter change
    have hnext := ih hx.2 (hg.of_eq (hpass.present hg.present) hqueue hbusy (congrArg _ hmemory))
    simp only [Mirrors, g.alter_seen] at hnext
    exact hnext
  | subscribe channel name next ih =>
    let g' : Stage (σ × List Nested) := { g with session := g.session.subscribe channel name }
    have hg' : g'.Noted P := by
      cases channel <;>
        exact hg.of_eq ⟨⟨hg.present.running.live, hg.present.running.detached⟩, hg.present.hold⟩
          rfl rfl rfl
    have hnext := ih hx hg'
    cases channel <;> exact hnext
  | unsubscribe channel name next ih =>
    let g' : Stage (σ × List Nested) := { g with session := g.session.unsubscribe channel name }
    have hg' : g'.Noted P := by
      cases channel <;>
        exact hg.of_eq ⟨⟨hg.present.running.live, hg.present.running.detached⟩, hg.present.hold⟩
          rfl rfl rfl
    have hnext := ih hx hg'
    cases channel <;> exact hnext

theorem perform_mirrors (hP : Keeping P) (keep : Bool) {x : Play σ α} (hx : x.Within .unstarted)
    {hold : Hold} (hh : hold = .current ∨ hold = .live) {s : Session (σ × List Nested)}
    (hs : s.Noted P) :
    Mirrors (Session.seen keep) (Session.Noted P) s (i.noting.perform hold x.noting)
      ((i.relay keep).perform hold (x.relay keep)) := by
  obtain ⟨heq, hg⟩ := i.make_mirrors hP keep hx (g := ⟨s, hold⟩) ⟨⟨hs.running, hh⟩, hs.busy, hs.notes⟩
  refine ⟨?_, hg.present.running, hg.busy, hg.notes⟩
  simp only [Stage.seen] at heq
  simp only [perform, Act.on, heq]

/-- The interpreter that takes notes is mirrored by the one without notes, whether its events are
kept or not. -/
theorem noting_mirror (hP : Keeping P) (keep : Bool) (hw : i.surroundings.Watching .unstarted)
    (ha : i.surroundings.Acting .unstarted) (hj : i.surroundings.Judging .unstarted) :
    Mirror i.noting (i.relay keep) (Session.seen keep) (Session.Noted P) where
  automaton := rfl
  config := rfl
  running hs := hs.running
  live _ := rfl
  detached _ := rfl
  edits _ := rfl
  copies _ := rfl
  report _ _ _ _ hs := ⟨rfl, ⟨hs.running.live, hs.running.detached⟩, hs.busy, hs.notes⟩
  write _ _ _ hs := ⟨rfl, ⟨rfl, hs.running.detached⟩, hs.busy, hs.notes⟩
  copied hs := ⟨rfl, ⟨hs.running.live, hs.running.detached⟩, hs.busy, hs.notes⟩
  effect name := by
    have acting := ha name
    simp only [noting, relay, Surroundings.tell, Table.get?_map]
    cases h : i.surroundings.effects.get? name with
    | none => exact .none
    | some handler =>
      cases handler with
      | setFlag => exact .setFlag
      | removePiece => exact .removePiece
      | custom play =>
        refine .custom fun payload s hs => ?_
        exact i.perform_mirrors hP keep (acting play h payload) (.inl rfl) hs
  judge {c key} _ _ e s hs := i.perform_mirrors hP keep (hj key e) (.inl rfl) hs
  notify n s hs := by
    refine (i.perform_mirrors hP keep (hw.onTransition n) (.inr rfl) hs).bind fun _ s' hs' => ?_
    refine mirrors_get_bind (mirrors_performAll (fun name s hs => ?_) _ hs')
    exact i.perform_mirrors hP keep (hw.transitionWatcher name n) (.inr rfl) hs
  notifyLog l s hs := by
    refine (i.perform_mirrors hP keep (hw.onRuleLog l) (.inr rfl) hs).bind fun _ s' hs' => ?_
    refine mirrors_get_bind (mirrors_performAll (fun name s hs => ?_) _ hs')
    exact i.perform_mirrors hP keep (hw.logWatcher name l) (.inr rfl) hs

variable {i}

/-- Without notes and with its queue, a session is seen as it is by whoever takes none. -/
theorem keepsQueue_seen :
    KeepsQueue (Session.seen true) (Session.Noted (σ := σ) fun _ _ => True) where
  queue _ := rfl
  waiting _ _ hs := ⟨rfl, ⟨hs.running.live, hs.running.detached⟩, hs.busy, trivial⟩

/-- The events of the notes are those that have been dispatched and those that wait, in order; all
of them were deferred, and the game was the same before and after. -/
def Pending (dispatched : List Event) (queue : List Event) (notes : List Nested) : Prop :=
  notes.map Nested.event = dispatched ++ queue ∧
    ∀ n ∈ notes, n.answer = .deferral n.event n.before.1.state.text ∧ n.after = n.before

theorem keeping_pending (dispatched : List Event) : Keeping (Pending dispatched) := by
  rintro queue notes ⟨hevents, hnotes⟩ e c s
  refine ⟨by rw [List.map_append, hevents, List.append_assoc]; rfl, fun n hn => ?_⟩
  rcases List.mem_append.1 hn with hn | hn
  · exact hnotes n hn
  · rw [List.mem_singleton] at hn
    subst hn
    exact ⟨rfl, rfl⟩

/-- The first of the events that wait is taken out and dispatched. -/
theorem Noted.taken {s : Session (σ × List Nested)} {dispatched rest : List Event} {e : Event}
    (hs : s.Noted (Pending dispatched)) (hq : s.queue = e :: rest) :
    Session.Noted (Pending (dispatched ++ [e])) { s with queue := rest } := by
  refine ⟨⟨hs.running.live, hs.running.detached⟩, hs.busy, ?_, hs.notes.2⟩
  rw [hs.notes.1, hq, List.append_assoc]
  rfl

/-- How the draining of the events that wait comes to its end: none is left, or one fails. -/
inductive Ends (j : Interpreter σ) (t : Session σ) : Except Fault Unit → Session σ → Prop where
  | emptied (none : t.queue = []) : Ends j t (.ok ()) t
  | failed {e : Event} {rest : List Event} {f : Fault} {s' : Session σ}
      (waiting : t.queue = e :: rest)
      (fails : j.dispatch e { t with queue := rest } = (.error f, s')) : Ends j t (.error f) s'

/-- Up to its end, draining the events that wait is sending them one after another, with nobody
interfering. -/
theorem drainLog_ends (hw : i.surroundings.Watching .unstarted)
    (ha : i.surroundings.Acting .unstarted) (hj : i.surroundings.Judging .unstarted) {fuel : Nat}
    {s s' : Session (σ × List Nested)} {log : List Response} {o : Except Fault Unit}
    {dispatched : List Event} (hs : s.Noted (Pending dispatched))
    (hrun : i.noting.drainLog fuel s = some (log, o, s')) :
    ∃ t, t.Noted (Pending (dispatched ++ log.map Response.event)) ∧
      i.muted.sendAll 0 (log.map Response.event) (s.seen false).release =
        some (log.map .ok, (t.seen false).release) ∧
      i.noting.Ends t o s' := by
  revert dispatched
  refine i.noting.drainLog_induction (P := fun s log o s' => ∀ {dispatched},
    s.Noted (Pending dispatched) → ∃ t, t.Noted (Pending (dispatched ++ log.map Response.event)) ∧
      i.muted.sendAll 0 (log.map Response.event) (s.seen false).release =
        some (log.map .ok, (t.seen false).release) ∧
      i.noting.Ends t o s') ?_ ?_ ?_ hrun
  · intro s hq dispatched hs
    exact ⟨s, by simpa using hs, rfl, .emptied hq⟩
  · intro s e rest f s' hq hd dispatched hs
    exact ⟨s, by simpa using hs, rfl, .failed hq hd⟩
  · intro s e rest r s₁ log o s' hq hd ih dispatched hs
    have mirror := i.noting_mirror (keeping_pending (dispatched ++ [e])) false hw ha hj
    obtain ⟨heq, hs₁⟩ := mirror.dispatch (Noted.taken hs hq) e
    rw [hd] at heq hs₁
    have next : i.muted.dispatch e (s.seen false).release.engage = (.ok r, s₁.seen false) := by
      rw [Session.engage_release (s := s.seen false) hs.busy]
      exact heq
    obtain ⟨t, ht, hflat, ends⟩ := ih hs₁
    have hevent := event_of_dispatch _ hd
    refine ⟨t, ?_, ?_, ends⟩
    · rw [List.map_cons, hevent]
      simpa using ht
    · rw [List.map_cons, hevent]
      exact sendAll_cons _ rfl next rfl hflat

/-- Draining the events that wait is sending them one after another, with nobody interfering. -/
theorem drainLog_flat (hw : i.surroundings.Watching .unstarted)
    (ha : i.surroundings.Acting .unstarted) (hj : i.surroundings.Judging .unstarted) {fuel : Nat}
    {s s' : Session (σ × List Nested)} {log : List Response} {dispatched : List Event}
    (hs : s.Noted (Pending dispatched))
    (hrun : i.noting.drainLog fuel s = some (log, .ok (), s')) :
    s'.queue = [] ∧ s'.Noted (Pending (dispatched ++ log.map Response.event)) ∧
      i.muted.sendAll 0 (log.map Response.event) (s.seen false).release =
        some (log.map .ok, (s'.seen false).release) := by
  obtain ⟨t, ht, hflat, ends⟩ := drainLog_ends hw ha hj hs hrun
  cases ends with
  | emptied hq => exact ⟨hq, ht, hflat⟩

theorem noted_start {s : Session σ} (hs : s.Running) (hq : s.queue = []) :
    (s.noted []).engage.Noted (Pending []) := by
  refine ⟨⟨hs.live, hs.detached⟩, rfl, ?_, fun n hn => absurd hn List.not_mem_nil⟩
  rw [Session.engage, Session.noted, hq]
  rfl

theorem seen_noted {s : Session σ} (hq : s.queue = []) :
    (s.noted []).engage.seen false = s.engage := by
  rw [Session.seen, Session.engage, Session.noted, Session.engage, ← hq]
  rfl

/-- The run with notes is the run itself, so that it may be followed instead. -/
theorem noting_cycleLog (hw : i.surroundings.Watching .unstarted)
    (ha : i.surroundings.Acting .unstarted) (hj : i.surroundings.Judging .unstarted) {fuel : Nat}
    {e : Event} {s s' : Session σ} {log : List Response} {o : Except Fault Response}
    (hs : s.Running) (hlog : i.cycleLog fuel e s.engage = some (log, o, s')) :
    ∃ t, i.noting.cycleLog fuel e (s.noted []).engage = some (log, o, t) ∧ t.seen true = s' := by
  have hs₀ : (s.noted []).engage.Noted fun _ _ => True :=
    ⟨⟨hs.live, hs.detached⟩, rfl, trivial⟩
  have follows := i.noting_mirror (P := fun _ _ => True) (fun _ _ _ _ _ _ => trivial) true hw ha hj
  rw [relay_true] at follows
  have followed : i.cycleLog fuel e s.engage = _ := (follows.cycleLog keepsQueue_seen fuel e hs₀).1
  obtain ⟨⟨log, o, t⟩, hnoted, heq⟩ := Option.map_eq_some_iff.1 (followed.symm.trans hlog)
  cases heq
  exact ⟨t, hnoted, rfl⟩

/-- Nested events might as well be sent afterwards. If sending an event comes to an answer, every
event that was sent meanwhile was deferred and left the game as it was; these events were
dispatched after the first one, in the order in which they were sent; and sending all of them one
after another, in surroundings without events of their own, has the same answers and leads to the
same session. -/
theorem send_flat (hw : i.surroundings.Watching .unstarted)
    (ha : i.surroundings.Acting .unstarted) (hj : i.surroundings.Judging .unstarted) {fuel : Nat}
    {e : Event} {s s' : Session σ} {r : Response} (hs : s.Running) (atRest : s.AtRest)
    (hsend : i.send fuel e s = some (.ok r, s')) :
    ∃ notes rest,
      i.noting.send fuel e (s.noted []) = some (.ok r, s'.noted notes) ∧
      (∀ n ∈ notes, n.answer = .deferral n.event n.before.1.state.text ∧ n.after = n.before) ∧
      i.sendLog fuel e s = some (r :: rest, .ok r, s') ∧
      (r :: rest).map Response.event = e :: notes.map Nested.event ∧
      i.muted.sendAll 0 (e :: notes.map Nested.event) s = some ((r :: rest).map .ok, s') := by
  obtain ⟨log, hlog⟩ := sendLog_of_send i hsend
  obtain ⟨s', hcycle, rfl⟩ := i.cycleLog_of_sendLog atRest.idle hlog
  obtain ⟨t, hnoted, rfl⟩ := noting_cycleLog hw ha hj hs hcycle
  have hq := atRest.queue
  obtain ⟨t₁, rest, hd, hdrain, rfl⟩ := dispatch_of_cycleLog _ hnoted
  -- What the first dispatch sends is all that is noted after it.
  have mirror := i.noting_mirror (keeping_pending []) false hw ha hj
  obtain ⟨hfirst, ht₁⟩ := mirror.dispatch (noted_start hs hq) e
  rw [seen_noted hq, hd] at hfirst
  rw [hd] at ht₁
  obtain ⟨hempty, ⟨-, -, hevents, hnotes⟩, hflat⟩ := drainLog_flat hw ha hj ht₁ hdrain
  have whole : t.seen true = t.seen false := by simp [Session.seen, hempty]
  have events : t.memory.2.map Nested.event = rest.map Response.event := by
    rw [hevents, hempty, List.append_nil]
    rfl
  have idle := atRest.idle
  refine ⟨t.memory.2, rest, ?_, hnotes, hlog, ?_, ?_⟩
  · rw [← map_sendLog, sendLog_of_cycleLog _ (s := s.noted []) idle hnoted]
    rfl
  · rw [List.map_cons, event_of_dispatch _ hd, events]
  · rw [events, whole]
    exact sendAll_cons _ idle hfirst rfl hflat

/-- A game without rules whose observer takes two turns once it has begun, and after the second one
looks for a winner. -/
def hasty : Interpreter Unit where
  automaton := (Automaton.build ⟨"hasty", 2, [], [], [], []⟩).toOption.getD
    ⟨⟨"hasty", 2, [], [], [], []⟩, [], [], []⟩
  config := .usual
  surroundings :=
    let turn (next : Play Unit Unit) : Play Unit Unit := .send ⟨"NEXT_TURN", .null⟩ fun _ => next
    { Surroundings.quiet fun _ m => m with
      onTransition n :=
        if n.event.type = "START_GAME" then turn (turn (.done ()))
        else .look fun c _ =>
          if c.turn = 3 then .send ⟨"CHECK_WIN", .null⟩ fun _ => .done () else .done () }

/-- Its observer only sends events. -/
theorem hasty_watching {p : Permit} (sends : p.sends) : hasty.surroundings.Watching p := by
  refine ⟨fun n => ?_, fun _ => trivial, fun _ _ => trivial, fun _ _ => trivial⟩
  show Play.Within _ (if n.event.type = "START_GAME" then _ else _)
  split
  · exact ⟨sends, fun _ => ⟨sends, fun _ => trivial⟩⟩
  · intro c _
    show Play.Within _ (if c.turn = 3 then _ else _)
    split
    · exact ⟨sends, fun _ => trivial⟩
    · trivial

theorem hasty_send_flat :
    ∃ r s' notes rest,
      hasty.send 4 ⟨"START_GAME", .null⟩ (hasty.start (.idle ())) = some (.ok r, s') ∧
      hasty.noting.send 4 ⟨"START_GAME", .null⟩ ((hasty.start (.idle ())).noted []) =
        some (.ok r, s'.noted notes) ∧
      (∀ n ∈ notes, n.answer = .deferral n.event n.before.1.state.text ∧ n.after = n.before) ∧
      hasty.sendLog 4 ⟨"START_GAME", .null⟩ (hasty.start (.idle ())) =
        some (r :: rest, .ok r, s') ∧
      (r :: rest).map Response.event = ⟨"START_GAME", .null⟩ :: notes.map Nested.event ∧
      hasty.muted.sendAll 0 (⟨"START_GAME", .null⟩ :: notes.map Nested.event)
        (hasty.start (.idle ())) = some ((r :: rest).map .ok, s') := by
  have answered : (hasty.send 4 ⟨"START_GAME", .null⟩ (hasty.start (.idle ()))).map
      (fun run => run.1.toBool) = some true := by
    decide +kernel
  obtain ⟨⟨o, s'⟩, hsend, ho⟩ := Option.map_eq_some_iff.1 answered
  cases o with
  | error f => cases ho
  | ok r =>
    have flat := send_flat (i := hasty) (hasty_watching trivial) (Surroundings.acting_of_usual rfl)
      (fun _ _ => trivial) ⟨rfl, rfl⟩ ⟨rfl, rfl, rfl⟩ hsend
    obtain ⟨notes, rest, hflat⟩ := flat
    exact ⟨r, s', notes, rest, hsend, hflat⟩

end Interpreter
end TokenGate
