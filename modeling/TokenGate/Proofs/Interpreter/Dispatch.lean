import TokenGate.Proofs.History
import TokenGate.Proofs.Interpreter.Settlement

/-!
# What a dispatch does

An event that is dispatched to a running game is ignored, or its rule is settled; then it is
blocked, it fails, or the game moves on. Nothing else happens but what the surroundings are
permitted to do.
-/

namespace TokenGate

open Act

variable {σ : Type} {p q : Permit}

/-- The turn after the event of an edge. -/
def Edge.turn (edge : Edge) (turn : Int) : Int :=
  match edge.event with
  | .gameplay .nextTurn => turn + 1
  | _ => turn

/-- The rule of an edge is settled, if it has one. -/
def Edge.Settles (p q : Permit) (s : Session σ) (edge : Edge)
    (o : Except Fault (Except Fault Progress)) (s' : Session σ) : Prop :=
  match edge.entry? with
  | none => o = .ok (.ok .none) ∧ s' = s
  | some entry => entry.rule.Settles p q s o s'

/-- What dispatching an event to a running game comes to. -/
inductive Interpreter.Dispatches (i : Interpreter σ) (p q : Permit) (e : Event)
    (s : Session σ) :
    Except Fault Response → Session σ → Prop where
  | ignored {s' : Session σ} (unknown : i.automaton.edge? s.current.state e.type = none)
      (after : s.Passes q s') :
      Dispatches i p q e s (.ok ⟨.ignored, e, s.current.state.text, .none⟩) s'
  | blocked {edge : Edge} {f : Fault} {s₁ s' : Session σ}
      (found : i.automaton.edge? s.current.state e.type = some edge)
      (settled : edge.Settles p q s (.ok (.error f)) s₁) (after : s₁.Passes q s') :
      Dispatches i p q e s
        (.ok ⟨.blocked, e, s₁.current.state.text, { Progress.none with verdict := some .blocked }⟩)
        s'
  | followed {edge : Edge} {g : Progress} {s₁ s' : Session σ} {kept : List Event}
      (found : i.automaton.edge? s.current.state e.type = some edge)
      (settled : edge.Settles p q s (.ok (.ok g)) s₁)
      (limit : i.config.maxHistory.keepLast (s₁.current.history ++ [e]) = .ok kept)
      (after : (s₁.modifyCurrent fun c =>
        { c with
          turn := edge.turn c.turn
          state := .phase edge.target
          history := kept }).Passes q s') :
      Dispatches i p q e s (.ok ⟨.transitioned, e, s'.current.state.text, g⟩) s'
  | failed {edge : Edge} {f : Fault} {s' : Session σ}
      (found : i.automaton.edge? s.current.state e.type = some edge)
      (settled : edge.Settles p q s (.error f) s') :
      Dispatches i p q e s (.error f) s'

namespace Rule.Settles

theorem running {s s' : Session σ} {r : Rule} {o : Except Fault (Except Fault Progress)}
    (h : r.Settles p q s o s') : s'.Running := by
  cases h with
  | granted after => exact after.running
  | paid _ after => exact after.running
  | unpaid after => exact after.running
  | passed after => exact after.running
  | bypassed _ _ after => exact after.running
  | blocked after => exact after.running
  | failed after => exact after.running

end Rule.Settles

theorem Edge.Settles.running {s s' : Session σ} (hs : s.Running) {edge : Edge}
    {o : Except Fault (Except Fault Progress)} (h : edge.Settles p q s o s') : s'.Running := by
  unfold Edge.Settles at h
  split at h
  · rw [h.2]
    exact hs
  · exact h.running

/-- A rule that blocks leaves the game as it is, up to what the surroundings do. -/
theorem Edge.Settles.passes_of_blocked {s s' : Session σ} {edge : Edge} {f : Fault}
    (h : edge.Settles p q s (.ok (.error f)) s') : s.Passes q s' := by
  unfold Edge.Settles at h
  split at h
  · cases h.1
  · rename_i entry _
    generalize entry.rule = r at h
    cases h with
    | blocked after => exact after

/-- And so does a rule that fails. -/
theorem Edge.Settles.passes_of_failed {s s' : Session σ} {edge : Edge} {f : Fault}
    (h : edge.Settles p q s (.error f) s') :
    s.Passes q s' ∧ (q.fails f ∨ ∃ entry, edge.entry? = some entry ∧
      ∃ t ∈ entry.rule.tokens.types, s'.current.ledger.balances.get? t = none) := by
  unfold Edge.Settles at h
  split at h
  · cases h.1
  · rename_i entry hentry
    generalize hr : entry.rule = r at h
    cases h with
    | failed after reason =>
      refine ⟨after, reason.imp_right ?_⟩
      rintro ⟨t, ht, hget⟩
      exact ⟨entry, hentry, t, hr ▸ ht, hget⟩

theorem Interpreter.Dispatches.running {i : Interpreter σ} {e : Event} {s s' : Session σ}
    {o : Except Fault Response} (hs : s.Running) (h : i.Dispatches p q e s o s') : s'.Running := by
  cases h with
  | ignored _ after => exact after.running
  | blocked _ _ after => exact after.running
  | followed _ _ _ after => exact after.running
  | failed _ settled => exact settled.running hs

namespace Interpreter

variable (i : Interpreter σ)

theorem handle_edge_settles (k : i.surroundings.KeepTo p q) (edge : Edge) (e : Event)
    {s : Session σ} (hs : s.Running) : (i.handle edge e).Ensures s (edge.Settles p q s) := by
  unfold Edge.Settles
  cases hentry : edge.entry? with
  | none =>
    simp [Ensures, handle, hentry]
  | some entry => exact i.handle_settles k hentry e hs

/-- A move sets the turn, the state and the history; the rest is up to those who watch. -/
theorem move_ensures (noStart : ¬ q.starts) (hw : i.surroundings.Watching q.calm)
    (limit : i.config.maxHistory.IsWhole) (edge : Edge) (e : Event) {s : Session σ}
    (hs : s.Running) :
    (i.move edge e).Ensures s fun o s' => o = .ok () ∧
      ∃ kept, i.config.maxHistory.keepLast (s.current.history ++ [e]) = .ok kept ∧
        (s.modifyCurrent fun c =>
          { c with
            turn := edge.turn c.turn
            state := .phase edge.target
            history := kept }).Passes q s' := by
  obtain ⟨kept, hkept⟩ := limit.keepLast (s.current.history ++ [e])
  have record (c : Context) (hc : c.history = s.current.history) :
      c.record e i.config.maxHistory = .ok { c with history := kept } := by
    simp only [Context.record, Context.append, hc, hkept]
    rfl
  simp only [Ensures, move, record]
  have told (n : Notice) {s₁ : Session σ} (h₁ : s₁.Running) :
      (i.notify n).Ensures s₁.copied fun o s' => o = .ok () ∧ s₁.Passes q s' := by
    have counted := Session.passes_copied (p := q) h₁
    refine (i.notify_ensures (p := q.calm) noStart hw n counted.running).mono ?_
    rintro o s' ⟨hpass, hf⟩
    refine ⟨?_, counted.trans hpass.of_calm⟩
    cases o with
    | ok _ => rfl
    | error f => exact (hf f rfl).elim
  obtain ⟨ho, hpass⟩ := told _ (hs.modifyCurrent _)
  refine ⟨ho, kept, hkept, ?_⟩
  rw [hs.modifyCurrent_eq (g := fun _ => { s.current with
    turn := edge.turn s.current.turn
    state := .phase edge.target
    history := kept }) rfl]
  exact hpass

/-- A trigger grants its tokens and the game moves on; the rest is up to those who watch. -/
theorem dispatch_trigger (noStart : ¬ q.starts) (hw : i.surroundings.Watching q.calm)
    (limit : i.config.maxHistory.IsWhole) {e : Event} {edge : Edge} {label : String}
    {t : Trigger} {s : Session σ} (hs : s.Running)
    (found : i.automaton.edge? s.current.state e.type = some edge)
    (bound : edge.entry? = some ⟨label, .trigger t⟩) :
    (i.dispatch e).Ensures s fun o s' =>
      o = .ok ⟨.transitioned, e, s'.current.state.text, .none⟩ ∧
      ∃ s₁ kept, (s.withLedger (s.current.ledger.grantBag t.grants)).Passes q s₁ ∧
        (s₁.modifyCurrent fun c =>
          { c with
            turn := edge.turn c.turn
            state := .phase edge.target
            history := kept }).Passes q s' := by
  have followed : (i.follow edge e).Ensures s fun o s' => s'.Running ∧
      o = .ok ⟨.transitioned, e, s'.current.state.text, .none⟩ ∧
      ∃ s₁ kept, (s.withLedger (s.current.ledger.grantBag t.grants)).Passes q s₁ ∧
        (s₁.modifyCurrent fun c =>
          { c with
            turn := edge.turn c.turn
            state := .phase edge.target
            history := kept }).Passes q s' := by
    unfold follow
    refine Ensures.bind (i.handle_trigger noStart hw bound e hs) ?_ ?_
    · rintro answer s₁ ⟨ho, granted⟩
      cases ho
      refine Ensures.bind (i.move_ensures noStart hw limit edge e granted.running) ?_ ?_
      · rintro _ s' ⟨-, kept, -, after⟩
        exact ⟨after.running, rfl, s₁, kept, granted, after⟩
      · rintro f s' ⟨ho, -⟩
        cases ho
    · rintro f s₁ ⟨ho, -⟩
      cases ho
  simp only [Ensures, dispatch, hs.current_eq, found, followed.1.detached_eq]
  exact followed.2

/-- What a dispatch does. -/
theorem dispatch_ensures (k : i.surroundings.KeepTo p q) (limit : i.config.maxHistory.IsWhole)
    (e : Event) {s : Session σ} (hs : s.Running) :
    (i.dispatch e).Ensures s (i.Dispatches p q e s) := by
  have hlive := hs.current_eq
  cases hedge : i.automaton.edge? s.current.state e.type with
  | none =>
    simp only [Ensures, dispatch, hlive, hedge]
    exact .ignored hedge (Session.passes_of_eq hs rfl rfl rfl rfl)
  | some edge =>
    have followed : (i.follow edge e).Ensures s (i.Dispatches p q e s) := by
      unfold follow
      refine Ensures.bind (i.handle_edge_settles k edge e hs) ?_ ?_
      · intro answer s₁ settled
        have h₁ := settled.running hs
        cases answer with
        | error f =>
          exact .blocked hedge settled (Session.passes_of_eq h₁ rfl rfl rfl rfl)
        | ok g =>
          refine Ensures.bind (i.move_ensures k.noStart' k.watching limit edge e h₁) ?_ ?_
          · rintro _ s' ⟨-, kept, hkept, after⟩
            exact .followed hedge settled hkept after
          · rintro f s' ⟨ho, -⟩
            cases ho
      · intro f s' settled
        exact .failed hedge settled
    have settled := followed.running hs
    simp only [Ensures, dispatch, hlive, hedge, settled.detached_eq]
    exact followed

end Interpreter
end TokenGate
