import TokenGate.Interpreter
import TokenGate.Proofs.Act.Ensures

/-!
# Transcripts

`send` hands on the answer to the event that was sent. A transcript has the answers to all events
that are dispatched meanwhile, in the order in which they are dispatched; an event whose handling
fails gets none. What every single dispatch does to a session and says in its answer, a whole run
does and says.
-/

namespace TokenGate

/-- Whether the event of an answer has moved the game on. -/
def Response.transitioned (r : Response) : Bool := r.outcome == .transitioned

/-- The events that have moved the game on, in the order in which they were dispatched. -/
def followedEvents (log : List Response) : List Event :=
  (log.filter Response.transitioned).map Response.event

/-- Nothing is going on in a session: no event is being dispatched, none waits, and the running game
is the only one. -/
structure Session.AtRest {σ : Type} (s : Session σ) : Prop where
  idle : s.dispatching = false
  queue : s.queue = []
  detached : s.detached = none

namespace Interpreter

variable {σ : Type} (i : Interpreter σ)

/-- `drain` with its transcript. -/
def drainLog : Nat → Session σ → Option (List Response × Except Fault Unit × Session σ)
  | fuel, s =>
    match s.queue with
    | [] => some ([], .ok (), s)
    | e :: rest =>
        match fuel with
        | 0 => none
        | fuel + 1 =>
            match i.dispatch e { s with queue := rest } with
            | (.ok r, s) => (drainLog fuel s).map fun (log, o, s) => (r :: log, o, s)
            | (.error f, s) => some ([], .error f, s)

/-- `cycle` with its transcript. -/
def cycleLog (fuel : Nat) (e : Event) (s : Session σ) :
    Option (List Response × Except Fault Response × Session σ) :=
  match i.dispatch e s with
  | (.error f, s) => some ([], .error f, forget s)
  | (.ok answer, s) =>
      match i.drainLog fuel s with
      | none => none
      | some (log, .error f, s) => some (answer :: log, .error f, forget s)
      | some (log, .ok (), s) => some (answer :: log, .ok answer, s)

/-- `send` with its transcript; an event that waits is not dispatched. -/
def sendLog (fuel : Nat) (e : Event) (s : Session σ) :
    Option (List Response × Except Fault Response × Session σ) :=
  match s.defer? e with
  | some (answer, s) => some ([], .ok answer, s)
  | none => (i.cycleLog fuel e s.engage).map fun (log, outcome, s) => (log, outcome, s.release)

/-- Sends events one after another, also after one that fails. -/
def sendAll (fuel : Nat) : List Event → Session σ →
    Option (List (Except Fault Response) × Session σ)
  | [], s => some ([], s)
  | e :: rest, s => do
      let (answer, s) ← i.send fuel e s
      let (answers, s) ← sendAll fuel rest s
      return (answer :: answers, s)

/-- `sendAll` with its transcript. -/
def sendAllLog (fuel : Nat) : List Event → Session σ →
    Option (List Response × List (Except Fault Response) × Session σ)
  | [], s => some ([], [], s)
  | e :: rest, s => do
      let (log, answer, s) ← i.sendLog fuel e s
      let (logs, answers, s) ← sendAllLog fuel rest s
      return (log ++ logs, answer :: answers, s)

/-- Taking a transcript changes nothing. -/
theorem map_drainLog (fuel : Nat) (s : Session σ) :
    (i.drainLog fuel s).map Prod.snd = i.drain fuel s := by
  induction fuel generalizing s with
  | zero =>
    unfold drainLog drain
    cases s.queue <;> rfl
  | succ fuel ih =>
    unfold drainLog drain
    cases s.queue with
    | nil => rfl
    | cons e rest =>
      simp only
      cases i.dispatch e { s with queue := rest } with
      | mk o s' =>
        cases o with
        | error f => rfl
        | ok r =>
          simp only [← ih s', Option.map_map]
          rfl

theorem map_cycleLog (fuel : Nat) (e : Event) (s : Session σ) :
    (i.cycleLog fuel e s).map Prod.snd = i.cycle fuel e s := by
  unfold cycleLog cycle
  cases i.dispatch e s with
  | mk o s' =>
    cases o with
    | error f => rfl
    | ok answer =>
      simp only [← i.map_drainLog fuel s']
      rcases i.drainLog fuel s' with _ | ⟨log, _ | _, s''⟩ <;> rfl

theorem map_sendLog (fuel : Nat) (e : Event) (s : Session σ) :
    (i.sendLog fuel e s).map Prod.snd = i.send fuel e s := by
  unfold sendLog send
  cases s.defer? e with
  | some deferred => rfl
  | none =>
    simp only [← map_cycleLog, Option.map_map]
    rfl

/-- Every send has a transcript. -/
theorem sendLog_of_send {fuel : Nat} {e : Event} {s s' : Session σ} {o : Except Fault Response}
    (h : i.send fuel e s = some (o, s')) : ∃ log, i.sendLog fuel e s = some (log, o, s') := by
  rw [← map_sendLog] at h
  obtain ⟨⟨log, o, s'⟩, hlog, heq⟩ := Option.map_eq_some_iff.1 h
  cases heq
  exact ⟨log, hlog⟩

theorem map_sendAllLog (fuel : Nat) (es : List Event) (s : Session σ) :
    (i.sendAllLog fuel es s).map Prod.snd = i.sendAll fuel es s := by
  induction es generalizing s with
  | nil => rfl
  | cons e rest ih =>
    unfold sendAllLog sendAll
    rw [← i.map_sendLog fuel e s]
    cases i.sendLog fuel e s with
    | none => rfl
    | some x =>
      obtain ⟨log, answer, s'⟩ := x
      simp only [Option.bind_eq_bind, Option.bind_some, Option.map_some, ← ih s']
      rcases i.sendAllLog fuel rest s' with _ | ⟨logs, answers, s''⟩ <;> rfl

/-- While an event is being dispatched, one that is sent waits. -/
theorem sendLog_of_dispatching {s : Session σ} (busy : s.dispatching = true) (fuel : Nat)
    (e : Event) :
    i.sendLog fuel e s =
      some ([], .ok (.deferral e s.stateText), { s with queue := s.queue ++ [e] }) := by
  rw [sendLog, Session.defer?, if_pos busy]

/-- If no event is being dispatched, the one that is sent is, together with those that are sent
meanwhile. -/
theorem sendLog_of_idle {s : Session σ} (idle : s.dispatching = false) (fuel : Nat) (e : Event) :
    i.sendLog fuel e s =
      (i.cycleLog fuel e s.engage).map fun (log, outcome, s) => (log, outcome, s.release) := by
  simp [sendLog, Session.defer?, idle]

theorem send_of_idle {s : Session σ} (idle : s.dispatching = false) (fuel : Nat) (e : Event) :
    i.send fuel e s = (i.cycle fuel e s.engage).map fun (outcome, s) => (outcome, s.release) := by
  simp [send, Session.defer?, idle]

theorem cycleLog_of_sendLog {fuel : Nat} {e : Event} {s s' : Session σ} {log : List Response}
    {o : Except Fault Response} (idle : s.dispatching = false)
    (h : i.sendLog fuel e s = some (log, o, s')) :
    ∃ t, i.cycleLog fuel e s.engage = some (log, o, t) ∧ s' = t.release := by
  rw [i.sendLog_of_idle idle] at h
  obtain ⟨⟨log, o, t⟩, hcycle, heq⟩ := Option.map_eq_some_iff.1 h
  cases heq
  exact ⟨t, hcycle, rfl⟩

theorem sendLog_of_cycleLog {fuel : Nat} {e : Event} {s t : Session σ} {log : List Response}
    {o : Except Fault Response} (idle : s.dispatching = false)
    (h : i.cycleLog fuel e s.engage = some (log, o, t)) :
    i.sendLog fuel e s = some (log, o, t.release) := by
  rw [i.sendLog_of_idle idle, h]
  rfl

/-- A cycle that comes to an answer is a dispatch after which the events that wait are drained. -/
theorem dispatch_of_cycleLog {fuel : Nat} {e : Event} {s s' : Session σ} {r : Response}
    {log : List Response} (h : i.cycleLog fuel e s = some (log, .ok r, s')) :
    ∃ s₁ rest, i.dispatch e s = (.ok r, s₁) ∧ i.drainLog fuel s₁ = some (rest, .ok (), s') ∧
      log = r :: rest := by
  unfold cycleLog at h
  split at h
  · cases h
  · rename_i answer s₁ hd
    split at h
    · cases h
    · cases h
    · rename_i rest s₂ hdrain
      cases h
      exact ⟨s₁, rest, hd, hdrain, rfl⟩

theorem drain_of_queue_eq_nil {fuel : Nat} {s : Session σ} (hq : s.queue = []) :
    i.drain fuel s = some (.ok (), s) := by
  cases fuel <;> simp only [drain, hq]

/-- An event after which none waits is all that is dispatched. -/
theorem send_of_dispatch {fuel : Nat} {e : Event} {s s' : Session σ} {r : Response}
    (idle : s.dispatching = false) (hd : i.dispatch e s.engage = (.ok r, s'))
    (hq : s'.queue = []) : i.send fuel e s = some (.ok r, s'.release) := by
  simp only [i.send_of_idle idle, cycle, hd, i.drain_of_queue_eq_nil hq, Option.map_some]

/-- A dispatch that fails is all there is to a send. -/
theorem send_of_dispatch_error {fuel : Nat} {e : Event} {s s' : Session σ} {f : Fault}
    (idle : s.dispatching = false) (hd : i.dispatch e s.engage = (.error f, s')) :
    i.send fuel e s = some (.error f, (forget s').release) := by
  simp only [i.send_of_idle idle, cycle, hd, Option.map_some]

/-- An event after which none waits is answered before the others are sent. -/
theorem sendAll_cons {fuel : Nat} {e : Event} {rest : List Event} {s s₁ s' : Session σ}
    {r : Response} {answers : List (Except Fault Response)} (idle : s.dispatching = false)
    (hd : i.dispatch e s.engage = (.ok r, s₁)) (hq : s₁.queue = [])
    (hrest : i.sendAll fuel rest s₁.release = some (answers, s')) :
    i.sendAll fuel (e :: rest) s = some (.ok r :: answers, s') := by
  simp only [sendAll, i.send_of_dispatch idle hd hq, Option.bind_eq_bind, Option.bind_some, hrest]
  rfl

/-- An event that has an edge to follow is blocked or moves the game on, if it is answered. -/
theorem follow_answers (edge : Edge) (e : Event) (s : Session σ) :
    (i.follow edge e).Ensures s fun o _ => ∀ r, o = .ok r →
      r.event = e ∧ (r.outcome = .blocked ∨ r.outcome = .transitioned) := by
  refine Act.Ensures.bind (R := fun _ _ => True) trivial (fun answer s₁ _ => ?_)
    (fun f s₁ _ r hr => by cases hr)
  cases answer with
  | error f =>
    intro r hr
    cases hr
    exact ⟨rfl, .inl rfl⟩
  | ok g =>
    refine Act.Ensures.bind (R := fun _ _ => True) trivial (fun _ s₂ _ => ?_)
      (fun f s₂ _ r hr => by cases hr)
    intro r hr
    cases hr
    exact ⟨rfl, .inr rfl⟩

/-- The answer to a dispatch is about the event, and never that it waits. -/
theorem answer_of_dispatch {e : Event} {s s' : Session σ} {r : Response}
    (hd : i.dispatch e s = (.ok r, s')) : r.event = e ∧ r.outcome ≠ .deferred := by
  unfold dispatch at hd
  split at hd
  · cases hd
    exact ⟨rfl, nofun⟩
  · split at hd
    · cases hd
      exact ⟨rfl, nofun⟩
    · rename_i edge _
      obtain ⟨event, outcome⟩ := i.follow_answers edge e s r (congrArg Prod.fst hd)
      refine ⟨event, fun deferred => ?_⟩
      rw [deferred] at outcome
      rcases outcome with outcome | outcome <;> cases outcome

theorem event_of_dispatch {e : Event} {s s' : Session σ} {r : Response}
    (hd : i.dispatch e s = (.ok r, s')) : r.event = e :=
  (i.answer_of_dispatch hd).1

/-- If no event is being dispatched, the one that is sent is dispatched at once: the run fails with
it, or its answer comes first. -/
theorem first_of_sendLog {fuel : Nat} {e : Event} {s s' : Session σ} {log : List Response}
    {o : Except Fault Response} (idle : s.dispatching = false)
    (h : i.sendLog fuel e s = some (log, o, s')) :
    (∃ f s₁, i.dispatch e s.engage = (.error f, s₁) ∧ o = .error f ∧ log = [] ∧
      s' = (forget s₁).release) ∨
    ∃ r rest, log = r :: rest ∧ r.event = e ∧ r.outcome ≠ .deferred ∧ ∀ r', o = .ok r' → r' = r := by
  obtain ⟨t, cycled, rfl⟩ := i.cycleLog_of_sendLog idle h
  unfold cycleLog at cycled
  split at cycled
  · rename_i f s₁ hd
    cases cycled
    exact .inl ⟨f, s₁, hd, rfl, rfl, rfl⟩
  · rename_i r s₁ hd
    obtain ⟨event, outcome⟩ := i.answer_of_dispatch hd
    split at cycled
    · cases cycled
    · cases cycled
      exact .inr ⟨r, _, rfl, event, outcome, nofun⟩
    · cases cycled
      refine .inr ⟨r, _, rfl, event, outcome, fun r' hr => ?_⟩
      cases hr
      rfl

/-- Induction over the events that wait: there is none, the first one fails, or it is answered and
the others follow. -/
theorem drainLog_induction {P : Session σ → List Response → Except Fault Unit → Session σ → Prop}
    (done : ∀ {s}, s.queue = [] → P s [] (.ok ()) s)
    (failed : ∀ {s e rest f s'}, s.queue = e :: rest →
      i.dispatch e { s with queue := rest } = (.error f, s') → P s [] (.error f) s')
    (answered : ∀ {s e rest r s₁ log o s'}, s.queue = e :: rest →
      i.dispatch e { s with queue := rest } = (.ok r, s₁) → P s₁ log o s' → P s (r :: log) o s')
    {fuel : Nat} {s s' : Session σ} {log : List Response} {o : Except Fault Unit}
    (hrun : i.drainLog fuel s = some (log, o, s')) : P s log o s' := by
  induction fuel generalizing s log with
  | zero =>
    unfold drainLog at hrun
    cases hq : s.queue with
    | nil =>
      rw [hq] at hrun
      cases hrun
      exact done hq
    | cons e rest =>
      rw [hq] at hrun
      cases hrun
  | succ fuel ih =>
    unfold drainLog at hrun
    cases hq : s.queue with
    | nil =>
      rw [hq] at hrun
      cases hrun
      exact done hq
    | cons e rest =>
      simp only [hq] at hrun
      cases hd : i.dispatch e { s with queue := rest } with
      | mk outcome s₁ =>
        simp only [hd] at hrun
        cases outcome with
        | error f =>
          cases hrun
          exact failed hq hd
        | ok r =>
          obtain ⟨⟨log₁, o₁, s₂⟩, hrest, heq⟩ := Option.map_eq_some_iff.1 hrun
          cases heq
          exact answered hq hd (ih hrest)

/-- A relation between a session, the answers that are given, and the session after that, which
every dispatch keeps and which does not depend on the events that wait, nor on whether one is being
dispatched. -/
structure Account (R : Session σ → List Response → Session σ → Prop) : Prop where
  refl : ∀ s, R s [] s
  append : ∀ {s s' s'' log log'}, R s log s' → R s' log' s'' → R s (log ++ log') s''
  between : ∀ s queue dispatching, R s [] { s with queue := queue, dispatching := dispatching }
  answered : ∀ {e s r s'}, i.dispatch e s = (.ok r, s') → R s [r] s'
  failed : ∀ {e s f s'}, i.dispatch e s = (.error f, s') → R s [] s'

namespace Account

variable {i} {R : Session σ → List Response → Session σ → Prop}

theorem drainLog (h : i.Account R) {fuel : Nat} {s s' : Session σ} {log : List Response}
    {o : Except Fault Unit} (hrun : i.drainLog fuel s = some (log, o, s')) : R s log s' := by
  refine i.drainLog_induction (P := fun s log _ s' => R s log s') ?_ ?_ ?_ hrun
  · intro s _
    exact h.refl s
  · intro s e rest f s' _ hd
    exact h.append (h.between s rest s.dispatching) (h.failed hd)
  · intro s e rest r s₁ log o s' _ hd tail
    exact h.append (h.between s rest s.dispatching) (h.append (h.answered hd) tail)

theorem cycleLog (h : i.Account R) {fuel : Nat} {e : Event} {s s' : Session σ}
    {log : List Response} {o : Except Fault Response}
    (hrun : i.cycleLog fuel e s = some (log, o, s')) : R s log s' := by
  unfold Interpreter.cycleLog at hrun
  cases hd : i.dispatch e s with
  | mk outcome s₁ =>
    simp only [hd] at hrun
    cases outcome with
    | error f =>
      cases hrun
      exact h.append (h.failed hd) (h.between s₁ [] s₁.dispatching)
    | ok answer =>
      cases hr : i.drainLog fuel s₁ with
      | none =>
        simp only [hr] at hrun
        cases hrun
      | some x =>
        obtain ⟨log₁, outcome₁, s₂⟩ := x
        have both := h.append (h.answered hd) (h.drainLog hr)
        simp only [hr] at hrun
        cases outcome₁ with
        | error f =>
          cases hrun
          have forgotten := h.append both (h.between s₂ [] s₂.dispatching)
          rwa [List.append_nil] at forgotten
        | ok _ =>
          cases hrun
          exact both

theorem sendLog (h : i.Account R) {fuel : Nat} {e : Event} {s s' : Session σ}
    {log : List Response} {o : Except Fault Response}
    (hrun : i.sendLog fuel e s = some (log, o, s')) : R s log s' := by
  cases busy : s.dispatching with
  | true =>
    rw [i.sendLog_of_dispatching busy] at hrun
    cases hrun
    exact h.between s (s.queue ++ [e]) s.dispatching
  | false =>
    obtain ⟨t, hcycle, rfl⟩ := i.cycleLog_of_sendLog busy hrun
    have begun := h.append (h.between s s.queue true) (h.cycleLog hcycle)
    have released := h.append begun (h.between t t.queue false)
    rwa [List.append_nil] at released

/-- What every dispatch keeps, a whole run keeps. -/
theorem sendAllLog (h : i.Account R) {fuel : Nat} {es : List Event} {s s' : Session σ}
    {log : List Response} {answers : List (Except Fault Response)}
    (hrun : i.sendAllLog fuel es s = some (log, answers, s')) : R s log s' := by
  induction es generalizing s log answers with
  | nil =>
    cases hrun
    exact h.refl _
  | cons e rest ih =>
    simp only [Interpreter.sendAllLog, Option.bind_eq_bind, Option.bind_eq_some_iff] at hrun
    obtain ⟨⟨log₁, answer, s₁⟩, hsend, ⟨logs, answers', s₂⟩, hrest, heq⟩ := hrun
    cases heq
    exact h.append (h.sendLog hsend) (ih hrest)

end Account

/-- A run in which nothing fails: events are dispatched one after another, each with its answer. In
between, the events that wait come and go, and a send is over or the next one begins. -/
inductive Course : Session σ → List Response → Session σ → Prop where
  | done (s : Session σ) : Course s [] s
  | between {s s' : Session σ} {log : List Response} (queue : List Event) (dispatching : Bool)
      (rest : Course { s with queue := queue, dispatching := dispatching } log s') :
      Course s log s'
  | dispatched {s s₁ s' : Session σ} {e : Event} {r : Response} {log : List Response}
      (answered : i.dispatch e s = (.ok r, s₁)) (rest : Course s₁ log s') :
      Course s (r :: log) s'

namespace Course

variable {i}

theorem append {s s₁ s' : Session σ} {log log' : List Response} (h : i.Course s log s₁)
    (h' : i.Course s₁ log' s') : i.Course s (log ++ log') s' := by
  induction h with
  | done s => exact h'
  | between queue dispatching _ ih => exact .between queue dispatching (ih h')
  | dispatched answered _ ih => exact .dispatched answered (ih h')

theorem of_drainLog {fuel : Nat} {s s' : Session σ} {log : List Response}
    (hrun : i.drainLog fuel s = some (log, .ok (), s')) : i.Course s log s' := by
  refine i.drainLog_induction (P := fun s log o s' => o = .ok () → i.Course s log s') ?_ ?_ ?_
    hrun rfl
  · intro s _ _
    exact .done s
  · intro s e rest f s' _ _ ho
    cases ho
  · intro s e rest r s₁ log o s' _ hd tail ho
    exact .between rest s.dispatching (.dispatched hd (tail ho))

theorem of_sendLog {fuel : Nat} {e : Event} {s s' : Session σ} {log : List Response} {r : Response}
    (hrun : i.sendLog fuel e s = some (log, .ok r, s')) : i.Course s log s' := by
  cases busy : s.dispatching with
  | true =>
    rw [i.sendLog_of_dispatching busy] at hrun
    cases hrun
    exact .between (s.queue ++ [e]) s.dispatching (.done _)
  | false =>
    obtain ⟨t, hcycle, rfl⟩ := i.cycleLog_of_sendLog busy hrun
    obtain ⟨s₁, rest, hd, hdrain, rfl⟩ := i.dispatch_of_cycleLog hcycle
    have released : i.Course t [] t.release := .between t.queue false (.done _)
    have course := (of_drainLog hdrain).append released
    rw [List.append_nil] at course
    exact .between s.queue true (.dispatched hd course)

/-- If nothing that is sent fails, the whole run takes its course. -/
theorem of_sendAllLog {fuel : Nat} {es : List Event} {s s' : Session σ} {log : List Response}
    {answers : List (Except Fault Response)}
    (hrun : i.sendAllLog fuel es s = some (log, answers, s'))
    (smooth : ∀ f, .error f ∉ answers) : i.Course s log s' := by
  induction es generalizing s log answers with
  | nil =>
    cases hrun
    exact .done _
  | cons e rest ih =>
    simp only [Interpreter.sendAllLog, Option.bind_eq_bind, Option.bind_eq_some_iff] at hrun
    obtain ⟨⟨log₁, answer, s₁⟩, hsend, ⟨logs, answers', s₂⟩, hrest, heq⟩ := hrun
    cases heq
    have tail := ih hrest fun f hf => smooth f (List.mem_cons_of_mem _ hf)
    cases answer with
    | error f => exact absurd List.mem_cons_self (smooth f)
    | ok r => exact (of_sendLog hsend).append tail

end Course

end Interpreter
end TokenGate
