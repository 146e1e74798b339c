import TokenGate.Proofs.Interpreter.Story

/-!
# Sends that fail

If the handling of an event fails, so does the send that has led to it, and the events that wait
are forgotten. The events before have been handled as if they had been sent one by one. The game
has not moved on for the event whose rule has failed, and it has moved on if only those failed who
were told of it. Either way the next event that is sent is dispatched as ever.
-/

namespace TokenGate

open Act

variable {σ : Type}

/-- The state, the turn and the history of a game. -/
def Context.story (c : Context) : State × Int × List Event := (c.state, c.turn, c.history)

/-- Games with the same story go on with the same story. -/
theorem Context.story_advance {c c' : Context} (h : c.story = c'.story) (edge : Edge) (e : Event)
    (limit : HistoryLimit) : (c.advance edge e limit).story = (c'.advance edge e limit).story := by
  simp only [story, advance, Prod.mk.injEq] at h ⊢
  rw [h.2.1, h.2.2]
  exact ⟨trivial, rfl, rfl⟩

theorem Automaton.upholds_story (a : Automaton) (story : State × Int × List Event) :
    a.Upholds .storyKeeping fun c => c.story = story where
  changes same h := same.trans h
  fresh := False.elim
  applied _ h := h
  grant _ h := h
  charge _ h _ := h

namespace Interpreter

/-- How following an edge fails: its rule does, or else those who are told of the move, or the
history. -/
inductive Failing (i : Interpreter σ) (edge : Edge) (e : Event) (s : Session σ) (f : Fault) :
    Session σ → Prop where
  | handling {s' : Session σ} (failed : i.handle edge e s = (.error f, s')) :
      Failing i edge e s f s'
  | moving {g : Progress} {s₁ s' : Session σ} (handled : i.handle edge e s = (.ok (.ok g), s₁))
      (failed : i.move edge e s₁ = (.error f, s')) : Failing i edge e s f s'

variable {i : Interpreter σ} {e : Event} {f : Fault}

theorem failing_of_follow {edge : Edge} {s s' : Session σ}
    (h : i.follow edge e s = (.error f, s')) : i.Failing edge e s f s' := by
  unfold follow at h
  rw [bind_apply] at h
  cases hhandle : i.handle edge e s with
  | mk o s₁ =>
    rw [hhandle] at h
    cases o with
    | error f₁ =>
      cases h
      exact .handling hhandle
    | ok answer =>
      cases answer with
      | error f₁ => cases h
      | ok g =>
        simp only [bind_apply] at h
        cases hmove : i.move edge e s₁ with
        | mk o₂ s₂ =>
          rw [hmove] at h
          cases o₂ with
          | error f₂ =>
            cases h
            exact .moving hhandle hmove
          | ok _ => cases h

/-- A dispatch fails only if there is an edge to follow. -/
theorem failing_of_dispatch {s s' : Session σ} (h : i.dispatch e s = (.error f, s')) :
    ∃ c edge s₁, s.live = some c ∧ i.automaton.edge? c.state e.type = some edge ∧
      i.Failing edge e s f s₁ ∧ s' = { s₁ with detached := none } := by
  unfold dispatch at h
  split at h
  · cases h
  · rename_i c hlive
    split at h
    · cases h
    · rename_i edge found
      cases hfollow : i.follow edge e s with
      | mk o s₁ =>
        rw [hfollow] at h
        cases h
        exact ⟨c, edge, s₁, hlive, found, failing_of_follow hfollow, rfl⟩

/-- If the rule of an edge fails, so does the dispatch. -/
theorem dispatch_of_handle {s t : Session σ} (hs : s.Running) {edge : Edge}
    (found : i.automaton.edge? s.current.state e.type = some edge)
    (failed : i.handle edge e s = (.error f, t)) :
    i.dispatch e s = (.error f, { t with detached := none }) := by
  simp only [dispatch, hs.current_eq, found, follow, bind_apply, failed]

/-- A cycle fails with its own event, or with one of those that wait when it is done. -/
theorem dispatch_of_cycleLog_error {fuel : Nat} {s s' : Session σ} {log : List Response}
    (h : i.cycleLog fuel e s = some (log, .error f, s')) :
    (∃ s₁, i.dispatch e s = (.error f, s₁) ∧ log = [] ∧ s' = forget s₁) ∨
    ∃ r s₁ rest s₂, i.dispatch e s = (.ok r, s₁) ∧ i.drainLog fuel s₁ = some (rest, .error f, s₂) ∧
      log = r :: rest ∧ s' = forget s₂ := by
  unfold cycleLog at h
  split at h
  · rename_i hd
    cases h
    exact .inl ⟨_, hd, rfl, rfl⟩
  · rename_i r s₁ hd
    split at h
    · cases h
    · rename_i rest f' s₂ hdrain
      cases h
      exact .inr ⟨r, s₁, rest, s₂, hd, hdrain, rfl, rfl⟩
    · cases h

/-- Events that wait are dispatched one after another, and all of them are answered. -/
inductive Drains (i : Interpreter σ) : Session σ → List Response → Session σ → Prop where
  | done (s : Session σ) : Drains i s [] s
  | dispatched {s s₁ s' : Session σ} {e : Event} {waiting : List Event} {r : Response}
      {log : List Response} (next : s.queue = e :: waiting)
      (answered : i.dispatch e { s with queue := waiting } = (.ok r, s₁))
      (rest : Drains i s₁ log s') : Drains i s (r :: log) s'

/-- The session in which an event of a send comes to be dispatched, and the answers before that: it
is the one that was sent, or the first of those that wait when others before it have been
answered. -/
inductive Arrives (i : Interpreter σ) (e : Event) (s : Session σ) :
    List Response → Event → Session σ → Prop where
  | sent : Arrives i e s [] e s.engage
  | deferred {r : Response} {s₁ u : Session σ} {log : List Response} {x : Event}
      {waiting : List Event} (answered : i.dispatch e s.engage = (.ok r, s₁))
      (drained : i.Drains s₁ log u) (next : u.queue = x :: waiting) :
      Arrives i e s (r :: log) x { u with queue := waiting }

theorem Drains.course {s s' : Session σ} {log : List Response} (h : i.Drains s log s') :
    i.Course s log s' := by
  induction h with
  | done s => exact .done s
  | @dispatched s _ _ _ waiting _ _ _ answered _ ih =>
    exact .between waiting s.dispatching (.dispatched answered ih)

theorem Arrives.course {s t : Session σ} {log : List Response} {x : Event}
    (h : i.Arrives e s log x t) : i.Course s log t := by
  cases h with
  | sent => exact .between s.queue true (.done _)
  | @deferred r s₁ u log x waiting answered drained _ =>
    have taken : i.Course u [] { u with queue := waiting } := .between waiting u.dispatching (.done _)
    have course := drained.course.append taken
    rw [List.append_nil] at course
    exact .between s.queue true (.dispatched answered course)

/-- When the events that wait are drained and one of them fails, those before it have been
answered. -/
theorem failed_of_drainLog {fuel : Nat} {s s' : Session σ} {log : List Response}
    (hrun : i.drainLog fuel s = some (log, .error f, s')) :
    ∃ u x waiting, i.Drains s log u ∧ u.queue = x :: waiting ∧
      i.dispatch x { u with queue := waiting } = (.error f, s') := by
  refine i.drainLog_induction
    (P := fun s log o s' => o = .error f → ∃ u x waiting, i.Drains s log u ∧
      u.queue = x :: waiting ∧ i.dispatch x { u with queue := waiting } = (.error f, s'))
    ?_ ?_ ?_ hrun rfl
  · intro s _ ho
    cases ho
  · intro s e rest f' s' hq hd ho
    cases ho
    exact ⟨s, e, rest, .done s, hq, hd⟩
  · intro s e rest r s₁ log o s' hq hd ih ho
    obtain ⟨u, x, waiting, drained, next, failed⟩ := ih ho
    exact ⟨u, x, waiting, .dispatched hq hd drained, next, failed⟩

/-- A send that fails does so with an event that it comes to dispatch. -/
theorem failed_of_sendLog {fuel : Nat} {s s' : Session σ} {log : List Response}
    (idle : s.dispatching = false) (h : i.sendLog fuel e s = some (log, .error f, s')) :
    ∃ t x s₁, i.Arrives e s log x t ∧ i.dispatch x t = (.error f, s₁) ∧
      s' = (forget s₁).release := by
  obtain ⟨w, hcycle, rfl⟩ := i.cycleLog_of_sendLog idle h
  rcases dispatch_of_cycleLog_error hcycle with
    ⟨s₁, hd, rfl, rfl⟩ | ⟨r, s₁, rest, s₂, hd, hdrain, rfl, rfl⟩
  · exact ⟨s.engage, e, s₁, .sent, hd, rfl⟩
  · obtain ⟨u, x, waiting, drained, next, failed⟩ := failed_of_drainLog hdrain
    exact ⟨_, x, s₂, .deferred hd drained next, failed, rfl⟩

/-- Where the surroundings leave the story of a game alone, it is the old one if a rule fails, and
that of the game moved on if those fail who are told of the move. -/
theorem story_of_failing (k : i.Abides .storyKeeping) {s s' : Session σ} (hs : s.Running)
    {edge : Edge} (found : i.automaton.edge? s.current.state e.type = some edge)
    (h : i.Failing edge e s f s') :
    s'.Running ∧
    ((i.handle edge e s = (.error f, s') ∧ s'.current.story = s.current.story) ∨
    ∃ g s₁, i.handle edge e s = (.ok (.ok g), s₁) ∧ i.move edge e s₁ = (.error f, s') ∧
      s'.current.story = (s.current.advance edge e i.config.maxHistory).story) := by
  have before : s.Holds .storyKeeping fun c => c.story = s.current.story :=
    .of_live hs.current_eq hs.detached rfl fun hn => absurd trivial hn
  have handled := handle_keeps k (i.automaton.upholds_story s.current.story) found s before
  have running {P : Context → Prop} {t : Session σ} (ht : t.Holds .storyKeeping P) : t.Running :=
    ⟨ht.started, ht.attached id⟩
  cases h with
  | handling failed =>
    rw [Ensures, failed] at handled
    exact ⟨running handled.1, .inl ⟨failed, handled.1.current⟩⟩
  | @moving g s₁ _ hhandle failed =>
    rw [Ensures, hhandle] at handled
    have told := move_ensures_holds k
      (i.automaton.upholds_story (s.current.advance edge e i.config.maxHistory).story).toPreserves
      edge e handled.1 False.elim (Context.story_advance handled.1.current edge e _)
    rw [Ensures, failed] at told
    exact ⟨running told.1, .inr ⟨g, s₁, hhandle, failed, told.1.current⟩⟩

/-- Where an event fails that is dispatched while others wait, and what becomes of the game. -/
inductive FailsWith (i : Interpreter σ) (e : Event) (f : Fault) (s s' : Session σ) : Prop where
  | handling {edge : Edge} {t : Session σ}
      (found : i.automaton.edge? s.current.state e.type = some edge)
      (failed : i.handle edge e s = (.error f, t))
      (story : s'.current.story = s.current.story) : FailsWith i e f s s'
  | moving {edge : Edge} {g : Progress} {t t' : Session σ}
      (found : i.automaton.edge? s.current.state e.type = some edge)
      (handled : i.handle edge e s = (.ok (.ok g), t)) (failed : i.move edge e t = (.error f, t'))
      (story : s'.current.story = (s.current.advance edge e i.config.maxHistory).story) :
      FailsWith i e f s s'

theorem failsWith_of_dispatch (k : i.Abides .storyKeeping) {s s' : Session σ} (hs : s.Running)
    (h : i.dispatch e s = (.error f, s')) : i.FailsWith e f s (forget s').release := by
  obtain ⟨c, edge, s₁, hlive, found, failing, rfl⟩ := failing_of_dispatch h
  cases hs.current_eq.symm.trans hlive
  obtain ⟨hs₁, story⟩ := story_of_failing k hs found failing
  rw [hs₁.detached_eq]
  rcases story with ⟨failed, same⟩ | ⟨g, t, handled, failed, moved⟩
  · exact .handling found failed same
  · exact .moving found handled failed moved

/-- A send breaks off with an event: `log` has the answers before that, `waiting` the events that
waited then, `forgotten` those that are never dispatched, and `u` is the session in which the event
was dispatched, but for the events that waited. It was dispatched while the send was still going
on, and this is over only now that it has failed. -/
structure BreaksOff (i : Interpreter σ) (fuel : Nat) (e : Event) (s : Session σ) (f : Fault)
    (s' : Session σ) (log : List Response) (failing : Event) (waiting forgotten : List Event)
    (u : Session σ) : Prop where
  transcript : i.sendLog fuel e s = some (log, .error f, s')
  /-- The events of the run are the one that was sent and then all that were sent meanwhile. -/
  events : ∃ notes, i.noting.send fuel e (s.noted []) = some (.error f, s'.noted notes) ∧
    e :: notes.map Nested.event = log.map Response.event ++ failing :: forgotten
  /-- Those before the one that fails might as well have been sent one by one. -/
  before : i.muted.sendAll 0 (log.map Response.event) s = some (log.map .ok, u)
  failed : i.muted.send 0 failing u = some (.error f, s')
  ahead : waiting <+: forgotten
  dispatched : i.dispatch failing { u.engage with queue := waiting } =
    (.error f, { s'.engage with queue := forgotten })
  outcome : i.FailsWith failing f { u.engage with queue := waiting } s'

section BreakingOff

variable (hw : i.surroundings.Watching .storyKeeping) (ha : i.surroundings.Acting .storyKeeping)
  (hj : i.surroundings.Judging .storyKeeping)

include hw ha hj

/-- Those who leave the story of a game alone start no other one. -/
theorem unstarted_of_storyKeeping : i.surroundings.Watching .unstarted ∧
    i.surroundings.Acting .unstarted ∧ i.surroundings.Judging .unstarted := by
  have free : Permit.storyKeeping.Below .unstarted := ⟨fun _ => trivial, id, id⟩
  have fails (f : Fault) (_ : Permit.storyKeeping.fails f) : Permit.unstarted.fails f := trivial
  exact ⟨hw.weaken free fails, ha.weaken free fails, hj.weaken free fails⟩

/-- What becomes of a dispatch that fails in the run with notes. -/
theorem fails_of_noting {dispatched : List Event} {t x : Session (σ × List Nested)}
    (ht : t.Noted (Pending dispatched)) (hd : i.noting.dispatch e t = (.error f, x)) :
    x.memory.2.map Nested.event = dispatched ++ x.queue ∧ t.queue <+: x.queue ∧
      i.muted.send 0 e (t.seen false).release = some (.error f, (forget (x.seen true)).release) ∧
      i.dispatch e (t.seen true) = (.error f, x.seen true) ∧ x.dispatching = true ∧
      i.FailsWith e f (t.seen true) (forget (x.seen true)).release := by
  have keeping : Keeping fun queue notes => Pending dispatched queue notes ∧ t.queue <+: queue := by
    rintro queue notes ⟨pending, ahead⟩ e c s
    exact ⟨keeping_pending dispatched _ _ pending e c s, ahead.trans (List.prefix_append _ _)⟩
  have noted : t.Noted fun queue notes => Pending dispatched queue notes ∧ t.queue <+: queue :=
    ⟨ht.running, ht.busy, ht.notes, List.prefix_rfl⟩
  obtain ⟨hw', ha', hj'⟩ := unstarted_of_storyKeeping hw ha hj
  have mirror (keep : Bool) := i.noting_mirror keeping keep hw' ha' hj'
  obtain ⟨real, -⟩ := (mirror true).dispatch noted e
  obtain ⟨flat, -, busy, ⟨events, -⟩, ahead⟩ := (mirror false).dispatch noted e
  rw [hd] at real flat busy events ahead
  rw [relay_true] at real
  refine ⟨events, ahead, ?_, real, busy, ?_⟩
  · have next : i.muted.dispatch e (t.seen false).release.engage = (.error f, x.seen false) := by
      rw [Session.engage_release (s := t.seen false) ht.busy]
      exact flat
    show _ = some (_, (forget (x.seen false)).release)
    exact i.muted.send_of_dispatch_error rfl next
  · exact failsWith_of_dispatch ⟨hw, ha, fun _ _ => hj _⟩ ⟨ht.running.live, ht.running.detached⟩
      real

/-- A send that fails breaks off with one of its events. -/
theorem breaksOff_of_send {fuel : Nat} {s s' : Session σ} (hs : s.Running) (atRest : s.AtRest)
    (hsend : i.send fuel e s = some (.error f, s')) :
    ∃ log failing waiting forgotten u,
      i.BreaksOff fuel e s f s' log failing waiting forgotten u := by
  obtain ⟨hw', ha', hj'⟩ := unstarted_of_storyKeeping hw ha hj
  have idle := atRest.idle
  have hq := atRest.queue
  obtain ⟨log, hlog⟩ := i.sendLog_of_send hsend
  obtain ⟨w, hcycle, rfl⟩ := i.cycleLog_of_sendLog idle hlog
  obtain ⟨t, hnoted, rfl⟩ := noting_cycleLog hw' ha' hj' hs hcycle
  have start := noted_start hs hq
  have released : s.engage.release = s := by
    rw [Session.release, Session.engage, ← idle]
  have noted {x : Session (σ × List Nested)} (hx : t = forget x) :
      i.noting.send fuel e (s.noted []) =
        some (.error f, (forget (x.seen true)).release.noted x.memory.2) := by
    rw [← map_sendLog, sendLog_of_cycleLog _ (s := s.noted []) idle hnoted, hx]
    rfl
  have engaged {x : Session (σ × List Nested)} (busy : x.dispatching = true) :
      { (forget (x.seen true)).release.engage with queue := x.queue } = x.seen true := by
    simp only [forget, Session.release, Session.engage, Session.seen, busy, if_true]
  rcases dispatch_of_cycleLog_error hnoted with
    ⟨x, hd, rfl, rfl⟩ | ⟨r, t₁, rest, x, hd, hdrain, rfl, rfl⟩
  · obtain ⟨events, ahead, flat, real, busy, outcome⟩ := fails_of_noting hw ha hj start hd
    rw [seen_noted hq, released] at flat
    refine ⟨[], e, s.queue, x.queue, s, hlog, ⟨_, noted rfl, by rw [events]; rfl⟩, rfl, flat, ahead,
      ?_, outcome⟩
    show _ = (_, { (forget (x.seen true)).release.engage with queue := x.queue })
    rw [engaged busy]
    exact real
  · have mirror := i.noting_mirror (keeping_pending []) false hw' ha' hj'
    obtain ⟨hfirst, ht₁⟩ := mirror.dispatch start e
    rw [seen_noted hq, hd] at hfirst
    rw [hd] at ht₁
    obtain ⟨t, ht, hflat, ends⟩ := drainLog_ends hw' ha' hj' ht₁ hdrain
    cases ends with
    | @failed failing waiting _ _ hwaiting hfails =>
      have taken := Noted.taken ht hwaiting
      obtain ⟨events, ahead, flat, real, busy, outcome⟩ := fails_of_noting hw ha hj taken hfails
      have pending : { (t.seen false).release.engage with queue := waiting } =
          Session.seen true { t with queue := waiting } := by
        have held : t.dispatching = true := ht.busy
        simp only [Session.release, Session.engage, Session.seen, held, if_true]
      refine ⟨r :: rest, failing, waiting, x.queue, (t.seen false).release, hlog,
        ⟨_, noted rfl, ?_⟩, ?_, flat, ahead, ?_, ?_⟩
      · rw [events, List.map_cons, event_of_dispatch _ hd, List.append_assoc]
        rfl
      · rw [List.map_cons, event_of_dispatch _ hd]
        exact sendAll_cons _ idle hfirst rfl hflat
      · show _ = (_, { (forget (x.seen true)).release.engage with queue := x.queue })
        rw [engaged busy, pending]
        exact real
      · rw [pending]
        exact outcome

/-- A send leaves the interpreter ready for the next one, whether it fails or not: nothing is going
on, no event waits, and the event that is sent next is dispatched at once. If it fails, it breaks
off with one of its events. Data that describes no event is refused, and nothing changes. -/
theorem send_settles {fuel : Nat} {s s' : Session σ} {o : Except Fault Response}
    (atRest : s.AtRest) (hsend : i.send fuel e s = some (o, s')) :
    s'.AtRest ∧
    (∀ fuel' e' log' o' s'', i.sendLog fuel' e' s' = some (log', o', s'') →
      (∃ f t, i.dispatch e' s'.engage = (.error f, t) ∧ o' = .error f ∧ log' = [] ∧
        s'' = (forget t).release) ∨
      ∃ r rest, log' = r :: rest ∧ r.event = e' ∧ r.outcome ≠ .deferred ∧
        ∀ r', o' = .ok r' → r' = r) ∧
    (∀ f, o = .error f → ∃ log failing waiting forgotten u,
      i.BreaksOff fuel e s f s' log failing waiting forgotten u) ∧
    ∀ fuel' d err, Event.ofData s.edits d = .error err →
      i.sendData fuel' d s = some (.error (.event err), s) := by
  obtain ⟨log, hlog⟩ := i.sendLog_of_send hsend
  have settled : s'.AtRest := atRest_of_sendLog atRest hlog
  refine ⟨settled, ?_, ?_, ?_⟩
  · intro fuel' e' log' o' s'' next
    exact i.first_of_sendLog settled.idle next
  · rintro f rfl
    cases hlive : s.live with
    | some c =>
      exact breaksOff_of_send hw ha hj (Session.running_of_live hlive atRest.detached) atRest hsend
    | none =>
      -- Before the first start an event is ignored, and nobody is told of it.
      have unstarted : s.engage.live = none := hlive
      simp only [i.send_of_idle atRest.idle, cycle, dispatch, unstarted] at hsend
      rw [drain_of_queue_eq_nil] at hsend
      · cases hsend
      · exact atRest.queue
  · intro fuel' d err refused
    rw [sendData, refused]

end BreakingOff

/-- The same game with an observer that gives up after the first of the two turns that it has
taken. -/
def rash : Interpreter Unit where
  automaton := hasty.automaton
  config := .usual
  surroundings :=
    { Surroundings.quiet fun _ m => m with
      onTransition n :=
        if n.event.type = "START_GAME" then
          .send ⟨"NEXT_TURN", .null⟩ fun _ => .send ⟨"NEXT_TURN", .null⟩ fun _ => .done ()
        else .fail (.raised "RuntimeError" "tired") }

theorem rash_watching {p : Permit} (sends : p.sends) (fails : ∀ f, p.fails f) :
    rash.surroundings.Watching p := by
  refine ⟨fun n => ?_, fun _ => trivial, fun _ _ => trivial, fun _ _ => trivial⟩
  show Play.Within _ (if n.event.type = "START_GAME" then _ else _)
  split
  · exact ⟨sends, fun _ => ⟨sends, fun _ => trivial⟩⟩
  · exact fails _

/-- The second turn is forgotten, and the game has moved on to the first. -/
theorem rash_send_settles :
    ∃ f s', rash.send 4 ⟨"START_GAME", .null⟩ (rash.start (.idle ())) = some (.error f, s') ∧
      (s'.AtRest ∧ s'.current.turn = 2) ∧
      ∃ log failing waiting forgotten u,
        rash.BreaksOff 4 ⟨"START_GAME", .null⟩ (rash.start (.idle ())) f s' log failing waiting
          forgotten u := by
  have failed : (rash.send 4 ⟨"START_GAME", .null⟩ (rash.start (.idle ()))).map
      (fun run => (run.1.toBool, run.2.current.turn)) = some (false, 2) := by
    decide +kernel
  obtain ⟨⟨o, s'⟩, hsend, ho⟩ := Option.map_eq_some_iff.1 failed
  rw [Prod.mk.injEq] at ho
  cases o with
  | ok r => cases ho.1
  | error f =>
    obtain ⟨settled, -, breaks, -⟩ := send_settles (i := rash)
      (rash_watching trivial fun _ => trivial) (Surroundings.acting_of_usual rfl)
      (fun _ _ => trivial) ⟨rfl, rfl, rfl⟩ hsend
    exact ⟨f, s', hsend, ⟨settled, ho.2⟩, breaks f rfl⟩

end Interpreter
end TokenGate
