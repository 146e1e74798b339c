import TokenGate.Proofs.Interpreter.Transcript

/-!
# Sessions that can be reached

From outside, a game is started, events are sent to it, snapshots are made, and watchers come and
go. Between these calls no event is at hand and none waits.
-/

namespace TokenGate

variable {σ : Type}

namespace Interpreter

/-- The sessions that calls from outside lead to, in whatever order they come. -/
inductive Reachable (i : Interpreter σ) : Session σ → Prop where
  | idle (memory : σ) : Reachable i (.idle memory)
  | start {s : Session σ} (before : Reachable i s) : Reachable i (i.start s)
  | send {s s' : Session σ} {fuel : Nat} {e : Event} {o : Except Fault Response}
      (before : Reachable i s) (run : i.send fuel e s = some (o, s')) : Reachable i s'
  | snapshot {s : Session σ} (before : Reachable i s) : Reachable i s.copied
  | watch {s s' : Session σ} {channel : Channel} {name : String} (before : Reachable i s)
      (added : s.watch? channel name = some s') : Reachable i s'
  | unwatch {s : Session σ} (channel : Channel) (name : String) (before : Reachable i s) :
      Reachable i (s.unsubscribe channel name)
  | remember {s : Session σ} (change : σ → σ) (before : Reachable i s) :
      Reachable i { s with memory := change s.memory }

variable {i : Interpreter σ}

/-- When the events that wait have been dispatched, none is left. -/
theorem queue_of_drainLog {fuel : Nat} {s s' : Session σ} {log : List Response}
    (hrun : i.drainLog fuel s = some (log, .ok (), s')) : s'.queue = [] := by
  refine i.drainLog_induction (P := fun _ _ o s' => o = .ok () → s'.queue = []) ?_ ?_ ?_ hrun rfl
  · intro s hq _
    exact hq
  · intro s e rest f s' _ _ ho
    cases ho
  · intro s e rest r s₁ log o s' _ _ tail
    exact tail

/-- No event waits after a cycle, whatever has come of it. -/
theorem queue_of_cycleLog {fuel : Nat} {e : Event} {s s' : Session σ} {log : List Response}
    {o : Except Fault Response} (h : i.cycleLog fuel e s = some (log, o, s')) : s'.queue = [] := by
  unfold cycleLog at h
  split at h
  · cases h
    rfl
  · split at h
    · cases h
    · cases h
      rfl
    · rename_i hdrain
      cases h
      exact queue_of_drainLog hdrain

/-- A dispatch leaves no game detached. -/
theorem detached_dispatch {s : Session σ} (h : s.detached = none) (e : Event) :
    (i.dispatch e s).2.detached = none := by
  unfold dispatch
  split
  · exact h
  · split
    · exact h
    · rfl

theorem account_detached : i.Account fun s _ s' => s.detached = none → s'.detached = none where
  refl _ h := h
  append first second h := second (first h)
  between _ _ _ h := h
  answered := by
    intro e s r s' hd h
    have after := detached_dispatch h e (i := i)
    rwa [hd] at after
  failed := by
    intro e s f s' hd h
    have after := detached_dispatch h e (i := i)
    rwa [hd] at after

/-- Nothing is going on after a send, whatever has come of it. -/
theorem atRest_of_sendLog {fuel : Nat} {e : Event} {s s' : Session σ} {log : List Response}
    {o : Except Fault Response} (rest : s.AtRest) (h : i.sendLog fuel e s = some (log, o, s')) :
    s'.AtRest := by
  obtain ⟨t, hcycle, rfl⟩ := i.cycleLog_of_sendLog rest.idle h
  have emptied : t.queue = [] := queue_of_cycleLog hcycle
  have attached : t.detached = none := account_detached.cycleLog hcycle rest.detached
  exact ⟨rfl, emptied, attached⟩

/-- What starts and sends keep is true of everything that is reached, if it says nothing of those
who watch nor of what the surroundings remember. -/
theorem Reachable.invariant {J : Session σ → Prop}
    (aside : ∀ {s s'}, J s → s'.live = s.live → s'.detached = s.detached →
      s'.queue = s.queue → s'.dispatching = s.dispatching → J s')
    (idle : ∀ memory, J (.idle memory)) (start : ∀ {s}, J s → J (i.start s))
    (send : ∀ {s s' fuel e log o}, J s → i.sendLog fuel e s = some (log, o, s') → J s')
    {s : Session σ} (h : i.Reachable s) : J s := by
  induction h with
  | idle memory => exact idle memory
  | start _ ih => exact start ih
  | send _ run ih =>
    obtain ⟨log, hlog⟩ := i.sendLog_of_send run
    exact send ih hlog
  | snapshot _ ih => exact aside ih rfl rfl rfl rfl
  | @watch s s' channel name _ added ih =>
    obtain ⟨c, -, rfl⟩ := Option.map_eq_some_iff.1 added
    cases channel <;> exact aside ih rfl rfl rfl rfl
  | unwatch channel _ _ ih => cases channel <;> exact aside ih rfl rfl rfl rfl
  | remember _ _ ih => exact aside ih rfl rfl rfl rfl

/-- Between calls from outside nothing is going on. -/
theorem Reachable.rests {s : Session σ} (h : i.Reachable s) : s.AtRest := by
  refine h.invariant (J := Session.AtRest) ?_ ?_ ?_ ?_
  · intro s s' rest _ hdetached hqueue hidle
    exact ⟨hidle.trans rest.idle, hqueue.trans rest.queue, hdetached.trans rest.detached⟩
  · intro memory
    exact ⟨rfl, rfl, rfl⟩
  · intro s rest
    exact ⟨rest.idle, rfl, rfl⟩
  · intro s s' fuel e log o rest hlog
    exact atRest_of_sendLog rest hlog

/-- What is reached by sending events one after another. -/
theorem Reachable.sendAll {s s' : Session σ} (h : i.Reachable s) {fuel : Nat} {es : List Event}
    {answers : List (Except Fault Response)} (run : i.sendAll fuel es s = some (answers, s')) :
    i.Reachable s' := by
  induction es generalizing s answers with
  | nil =>
    cases run
    exact h
  | cons e rest ih =>
    simp only [Interpreter.sendAll, Option.bind_eq_bind, Option.bind_eq_some_iff] at run
    obtain ⟨⟨answer, s₁⟩, hsend, ⟨answers', s₂⟩, hrest, heq⟩ := run
    cases heq
    exact ih (h.send hsend) hrest

end Interpreter
end TokenGate
