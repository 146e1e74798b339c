import TokenGate.Proofs.Interpreter.Counting
import TokenGate.Proofs.Interpreter.MirrorRun
import TokenGate.Proofs.Interpreter.Renewal

/-!
# Starting anew while an event is handled

If the game is started anew while an event is handled, nothing of that event comes to the new game,
nor does any event that was waiting then. The run goes on as if the game were started when the event
is done, and only what was sent since the start were sent to it, by someone else.
-/

namespace TokenGate

open Act

variable {σ : Type} {i : Interpreter σ} {n : Nat} {dispatched : List Event}

namespace Session

variable {a : Automaton} {s : Session (σ × Calls)}

/-- The first of the events that wait is taken out and dispatched. -/
theorem Steady.taken (h : s.Steady n dispatched) {e : Event} {rest : List Event}
    (hq : s.queue = e :: rest) : Steady n (dispatched ++ [e]) { s with queue := rest } := by
  refine ⟨⟨h.running.live, h.running.detached⟩, h.busy, h.starts, ?_⟩
  show s.calls.sent = _
  rw [h.sent, hq, List.append_assoc]
  rfl

/-- A new game that has taken the place of the old one is as steady as any. -/
theorem Anew.steady (h : s.Anew a n) (attached : s.detached = none) :
    s.Steady s.calls.starts [] :=
  ⟨running_of_live h.live attached, h.busy, rfl, h.sent⟩

/-- It is as if the game were started only now, and no event were being dispatched. -/
theorem Anew.apart_eq (h : s.Anew a n) (attached : s.detached = none) :
    s.apart.release = { s.uncounted.release.startAs a s.games with detached := none } := by
  simp only [apart, uncounted, release, h.live, attached]
  rfl

end Session

namespace Interpreter

/-- Events have been dispatched one after another until none waited, each as if it were sent by
itself, and the game has not been started anew. -/
structure Undisturbed (i : Interpreter σ) (dispatched : List Event) (s : Session (σ × Calls))
    (log : List Response) (s' : Session (σ × Calls)) : Prop where
  starts : s'.calls.starts = s.calls.starts
  emptied : s'.queue = []
  sent : s'.calls.sent = dispatched ++ log.map Response.event
  alone : i.alone.sendAll 0 (log.map Response.event) s.apart.release =
    some (log.map .ok, s'.apart.release)

/-- Events have been dispatched one after another. During one of them the game was started anew, for
the last time; the others after it were undisturbed. -/
inductive Restarted (i : Interpreter σ) (s : Session (σ × Calls)) :
    List Response → Session (σ × Calls) → Prop where
  | intro {before rest : List Response} {e : Event} {r : Response} {u t s' : Session (σ × Calls)}
      (course : i.counting.Course s before u) (answered : i.counting.dispatch e u = (.ok r, t))
      (anew : t.Anew i.automaton u.calls.starts) (attached : t.detached = none)
      (undisturbed : i.Undisturbed [] t rest s') : Restarted i s (before ++ r :: rest) s'

/-- The events that wait may change meanwhile. -/
theorem Restarted.of_waiting {s s' : Session (σ × Calls)} {log : List Response} {queue : List Event}
    (h : i.Restarted { s with queue := queue } log s') : i.Restarted s log s' := by
  cases h with
  | intro course answered anew attached undisturbed =>
    exact .intro (.between queue s.dispatching course) answered anew attached undisturbed

/-- An event may be dispatched before. -/
theorem Restarted.cons {s s₁ s' : Session (σ × Calls)} {e : Event} {r : Response}
    {log : List Response} (answered : i.counting.dispatch e s = (.ok r, s₁))
    (h : i.Restarted s₁ log s') : i.Restarted s (r :: log) s' := by
  cases h with
  | intro course answered' anew attached undisturbed =>
    exact .intro (.dispatched answered course) answered' anew attached undisturbed

theorem keepsSending_uncounted :
    KeepsSending (Session.uncounted (σ := σ)) fun _ => True where
  queue _ := rfl
  waiting _ _ _ := ⟨rfl, trivial⟩
  live _ := rfl
  dispatching _ := rfl
  turned _ _ _ := ⟨rfl, trivial⟩

section Runs

variable (hw : i.surroundings.Watching .onlooking)

include hw

/-- A dispatch during which the game is not started anew is what it would be without calls. -/
theorem dispatch_steady (e : Event) {s : Session (σ × Calls)} (hs : s.Steady n dispatched) :
    ((i.counting.dispatch e s).2.Anew i.automaton n ∧ (i.counting.dispatch e s).2.detached = none) ∨
      Mirrors Session.apart (Session.Steady n dispatched) s (i.counting.dispatch e)
        (i.alone.dispatch e) := by
  rcases (i.counting_shadow hw).dispatch e (t := s.apart) ⟨rfl, hs⟩ with
    ⟨s', away, heq⟩ | ⟨told, after, hs'⟩
  · rw [heq]
    exact .inl ⟨⟨away.restarted, away.busy, away.live, away.sent⟩, rfl⟩
  · exact .inr ⟨Prod.ext told after, hs'⟩

/-- After a dispatch the run goes on undisturbed by it, or the game is started anew, be it by this
dispatch or later. -/
theorem dispatch_isolated {e : Event} {r : Response} {s s₁ s' : Session (σ × Calls)}
    {log : List Response} (hs : s.Steady n dispatched)
    (hd : i.counting.dispatch e s = (.ok r, s₁))
    (rest : ∀ {n dispatched}, s₁.Steady n dispatched →
      i.Undisturbed dispatched s₁ log s' ∨ i.Restarted s₁ log s') :
    (i.alone.dispatch e s.apart = (.ok r, s₁.apart) ∧ s₁.Steady n dispatched ∧
      i.Undisturbed dispatched s₁ log s') ∨ i.Restarted s (r :: log) s' := by
  have dispatch := dispatch_steady hw e hs
  simp only [Mirrors, hd] at dispatch
  rcases dispatch with ⟨anew, attached⟩ | ⟨told, hs₁⟩
  · rcases rest (anew.steady attached) with undisturbed | restarted
    · rw [← hs.starts] at anew
      have now : i.Restarted s ([] ++ r :: log) s' := .intro (.done s) hd anew attached undisturbed
      exact .inr now
    · exact .inr (restarted.cons hd)
  · rcases rest hs₁ with undisturbed | restarted
    · exact .inl ⟨told, hs₁, undisturbed⟩
    · exact .inr (restarted.cons hd)

/-- Draining the events that wait goes undisturbed, or it starts the game anew. -/
theorem drainLog_isolated {fuel : Nat} {s s' : Session (σ × Calls)} {log : List Response}
    (hs : s.Steady n dispatched) (hrun : i.counting.drainLog fuel s = some (log, .ok (), s')) :
    i.Undisturbed dispatched s log s' ∨ i.Restarted s log s' := by
  revert n dispatched
  refine i.counting.drainLog_induction (P := fun s log o s' => o = .ok () →
    ∀ {n dispatched}, s.Steady n dispatched →
      i.Undisturbed dispatched s log s' ∨ i.Restarted s log s') ?_ ?_ ?_ hrun rfl
  · intro s hq _ n dispatched hs
    exact .inl ⟨rfl, hq, by rw [hs.sent, hq]; rfl, rfl⟩
  · intro s e rest f s' _ _ ho
    cases ho
  · intro s e rest r s₁ log o s' hq hd ih ho n dispatched hs
    have event : r.event = e := event_of_dispatch _ hd
    rcases dispatch_isolated hw (hs.taken hq) hd (ih ho) with
      ⟨told, hs₁, undisturbed⟩ | restarted
    · refine .inl ⟨?_, undisturbed.emptied, ?_, ?_⟩
      · rw [undisturbed.starts, hs₁.starts, hs.starts]
      · rw [undisturbed.sent, List.map_cons, event, List.append_assoc]
        rfl
      · have busy : s.apart.dispatching = true := hs.busy
        rw [List.map_cons, event]
        refine sendAll_cons _ rfl ?_ rfl undisturbed.alone
        rw [Session.engage_release busy]
        exact told
    · exact .inr restarted.of_waiting

/-- A cycle that comes to an answer goes undisturbed, or it starts the game anew. -/
theorem cycleLog_isolated {fuel : Nat} {e : Event} {s s' : Session (σ × Calls)} {r : Response}
    {log : List Response} (hs : s.Steady n [])
    (hrun : i.counting.cycleLog fuel e s = some (log, .ok r, s')) :
    s'.calls.starts = n ∨ i.Restarted s log s' := by
  obtain ⟨s₁, rest, hd, hdrain, rfl⟩ := i.counting.dispatch_of_cycleLog hrun
  rcases dispatch_isolated hw hs hd fun hs₁ => drainLog_isolated hw hs₁ hdrain with
    ⟨-, hs₁, undisturbed⟩ | restarted
  · exact .inl (undisturbed.starts.trans hs₁.starts)
  · exact .inr restarted

end Runs

/-- Nobody calls before the first start. -/
theorem calls_of_unstarted {fuel : Nat} {e : Event} {s s' : Session (σ × Calls)}
    {o : Except Fault Response} (hl : s.live = none) (rest : s.AtRest)
    (hsend : i.counting.send fuel e s = some (o, s')) : s'.calls = s.calls := by
  have unstarted : s.engage.live = none := hl
  have empty : ∀ logger level message,
      (i.counting.report logger level message s.engage).queue = [] := fun _ _ _ => rest.queue
  simp only [i.counting.send_of_idle rest.idle, cycle, dispatch, unstarted,
    i.counting.drain_of_queue_eq_nil (empty _ _ _), Option.map_some] at hsend
  cases hsend
  rfl

/-- A send during which the game is started anew: `x` is the last event during which it is, `u` and
`t` are the sessions before and after that is dispatched, and `before` and `rest` have the answers
to the other events of the run. -/
structure StartsOver (i : Interpreter σ) (fuel : Nat) (e : Event) (s : Session σ) (r : Response)
    (s' : Session σ) (calls : Calls) (before : List Response) (x : Event) (answer : Response)
    (rest : List Response) (u t : Session (σ × Calls)) : Prop where
  transcript : i.sendLog fuel e s = some (before ++ answer :: rest, .ok r, s')
  course : i.counting.Course (s.counted .none) before u
  answered : i.counting.dispatch x u = (.ok answer, t)
  restarted : u.calls.starts < t.calls.starts
  last : t.calls.starts = calls.starts
  /-- Nothing of the event comes to the new game. -/
  fresh : t.live = some (.fresh t.games i.automaton.tokenTypes i.automaton.definition.initial)
  /-- Nor is anything done to its data, where custom effects and predicates write to no other game
  than the one that they are handed. -/
  untouched : i.surroundings.Acting .handed → i.surroundings.Judging .handed →
    t.Untouched ∧ t.current.fields t.edits = i.automaton.definition.initial
  /-- The events that were sent before the start wait no longer. -/
  waiting : t.queue = t.calls.sent
  /-- Those that were sent since are dispatched, in order, and no others. -/
  events : rest.map Response.event = calls.sent
  /-- It is as if the game were started now, under its number, and they were sent to it, by someone
  else, after the event had been dispatched. -/
  alone :
    i.alone.sendAll 0 calls.sent
        { t.uncounted.release.startAs i.automaton t.games with detached := none } =
      some (rest.map .ok, s')

/-- A new game has nothing to do with the event during which it is started. If a send comes to an
answer, and those who watch do not change the game, then either the game has not been started anew
or all that is left is the run that the new game would have had by itself, with the events that
were sent since it was started. -/
theorem isolated_of_send (hw : i.surroundings.Watching .onlooking) {fuel : Nat} {e : Event}
    {s s' : Session σ} {r : Response} (rest : s.AtRest)
    (hsend : i.send fuel e s = some (.ok r, s')) :
    ∃ calls, i.counting.send fuel e (s.counted .none) = some (.ok r, s'.counted calls) ∧
      (0 < calls.starts → ∃ before x answer rest u t,
        i.StartsOver fuel e s r s' calls before x answer rest u t) := by
  obtain ⟨log, hlog⟩ := i.sendLog_of_send hsend
  -- Counting changes nothing, so that the run whose calls are counted may be followed instead.
  have followed : i.sendLog fuel e s = _ := (sendLog_mirrors i.counting_follows.dispatch_mirrors
    keepsSending_uncounted fuel e (s := s.counted .none) trivial).1
  obtain ⟨⟨log, answer, t'⟩, hcounting, heq⟩ := Option.map_eq_some_iff.1 (followed.symm.trans hlog)
  cases heq
  have hsent : i.counting.send fuel e (s.counted .none) = some (.ok r, t') := by
    rw [← map_sendLog, hcounting]
    rfl
  refine ⟨t'.calls, hsent, fun restarts => ?_⟩
  have started : s.live.isSome = true := by
    cases hl : s.live with
    | some c => rfl
    | none =>
      rw [calls_of_unstarted hl ⟨rest.idle, rest.queue, rest.detached⟩ hsent] at restarts
      exact absurd restarts (Nat.lt_irrefl 0)
  have steady : (s.counted .none).engage.Steady 0 [] :=
    ⟨⟨started, rest.detached⟩, rfl, rfl, rest.queue.symm⟩
  obtain ⟨w, hcycle, rfl⟩ := i.counting.cycleLog_of_sendLog rest.idle hcounting
  rcases cycleLog_isolated hw steady hcycle with none | restarted
  · exact absurd none (Nat.ne_of_gt restarts)
  · cases restarted with
    | @intro before rest x answer u t _ course answered anew attached undisturbed =>
      have last : w.apart.release = w.release.uncounted := by
        simp only [Session.apart, Session.uncounted, Session.release, undisturbed.emptied]
      have begun : i.counting.Course (s.counted .none) before u := .between s.queue true course
      have untouched (ha : i.surroundings.Acting .handed) (hj : i.surroundings.Judging .handed) :
          t.Untouched ∧ t.current.fields t.edits = i.automaton.definition.initial := by
        have dispatched := untouched_dispatch ha hj hw (e := x) (s := u)
        rw [answered] at dispatched
        have running := Session.running_of_live anew.live attached
        rw [Option.some.inj (running.current_eq.symm.trans anew.live)]
        exact ⟨dispatched anew.restarted, Context.fields_fresh (dispatched anew.restarted) _ _⟩
      refine ⟨before, x, answer, rest, u, t, hlog, begun, answered, anew.restarted,
        undisturbed.starts.symm, anew.live, untouched, anew.sent.symm, undisturbed.sent.symm, ?_⟩
      have alone := undisturbed.alone
      rw [anew.apart_eq attached, last] at alone
      show i.alone.sendAll 0 w.calls.sent _ = _
      rw [undisturbed.sent]
      exact alone

/-- A game without rules whose observer gives it up for a new one when a turn is taken. Before that
it looks for a winner of the old game, and after that it begins the new one. -/
def restless : Interpreter Unit where
  automaton := (Automaton.build ⟨"restless", 2, [], [], [], []⟩).toOption.getD
    ⟨⟨"restless", 2, [], [], [], []⟩, [], [], []⟩
  config := .usual
  surroundings :=
    { Surroundings.quiet fun _ m => m with
      onTransition n :=
        if n.event.type = "NEXT_TURN" then
          .send ⟨"CHECK_WIN", .null⟩ fun _ => .start (.send ⟨"START_GAME", .null⟩ fun _ => .done ())
        else .done () }

theorem restless_watching : restless.surroundings.Watching .onlooking := by
  refine ⟨fun n => ?_, fun _ => trivial, fun _ _ => trivial, fun _ _ => trivial⟩
  show Play.Within _ (if n.event.type = "NEXT_TURN" then _ else _)
  split
  · exact ⟨trivial, fun _ => ⟨trivial, trivial, fun _ => trivial⟩⟩
  · trivial

theorem restless_isolated_of_send :
    ∃ o s s' r calls before x answer rest u t,
      restless.send 0 ⟨"START_GAME", .null⟩ (restless.start (.idle ())) = some (o, s) ∧
      restless.send 2 ⟨"NEXT_TURN", .null⟩ s = some (.ok r, s') ∧
      restless.counting.send 2 ⟨"NEXT_TURN", .null⟩ (s.counted .none) =
        some (.ok r, s'.counted calls) ∧ calls.starts = 1 ∧
      restless.StartsOver 2 ⟨"NEXT_TURN", .null⟩ s r s' calls before x answer rest u t := by
  have facts : (restless.send 0 ⟨"START_GAME", .null⟩ (restless.start (.idle ()))).map (fun run =>
      (run.2.dispatching, run.2.queue.length, run.2.detached.isSome,
        (restless.send 2 ⟨"NEXT_TURN", .null⟩ run.2).map fun run => run.1.toBool,
        (restless.counting.send 2 ⟨"NEXT_TURN", .null⟩ (run.2.counted .none)).map fun run =>
          run.2.calls.starts)) =
      some (false, 0, false, some true, some 1) := by
    decide +kernel
  obtain ⟨⟨o, s⟩, begun, hs⟩ := Option.map_eq_some_iff.1 facts
  simp only [Prod.mk.injEq] at hs
  obtain ⟨idle, empty, attached, answered, restarted⟩ := hs
  obtain ⟨⟨o', s'⟩, hsend, ho⟩ := Option.map_eq_some_iff.1 answered
  cases o' with
  | error f => cases ho
  | ok r =>
    obtain ⟨calls, hcounting, isolated⟩ := isolated_of_send restless_watching
      ⟨idle, List.eq_nil_of_length_eq_zero empty,
        Option.not_isSome_iff_eq_none.1 (Bool.eq_false_iff.1 attached)⟩ hsend
    rw [hcounting] at restarted
    have once : calls.starts = 1 := Option.some.inj restarted
    obtain ⟨before, x, answer, rest, u, t, run⟩ := isolated (once ▸ Nat.one_pos)
    exact ⟨o, s, s', r, calls, before, x, answer, rest, u, t, begun, hsend, hcounting, once, run⟩

end Interpreter
end TokenGate
