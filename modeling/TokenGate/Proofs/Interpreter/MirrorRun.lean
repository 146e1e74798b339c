import TokenGate.Proofs.Interpreter.Mirror
import TokenGate.Proofs.Interpreter.Transcript

/-!
# Mirrored runs

If every dispatch of an interpreter is mirrored by another one and the same events wait in both,
whole runs are mirrored: they have the same transcripts and the same answers.
-/

namespace TokenGate.Interpreter

open Act

variable {σ τ : Type} {i : Interpreter σ} {j : Interpreter τ} {see : Session σ → Session τ}
  {sound : Session σ → Prop}

/-- The events that wait are seen as they are. -/
structure KeepsQueue (see : Session σ → Session τ) (sound : Session σ → Prop) : Prop where
  queue : ∀ s, (see s).queue = s.queue
  waiting : ∀ queue {s}, sound s →
    see { s with queue := queue } = { see s with queue := queue } ∧ sound { s with queue := queue }

/-- All that a send looks at itself is seen as it is. -/
structure KeepsSending (see : Session σ → Session τ) (sound : Session σ → Prop) : Prop extends
    KeepsQueue see sound where
  live : ∀ s, (see s).live = s.live
  dispatching : ∀ s, (see s).dispatching = s.dispatching
  turned : ∀ dispatching {s}, sound s →
    see { s with dispatching := dispatching } = { see s with dispatching := dispatching } ∧
      sound { s with dispatching := dispatching }

section Cycles

variable (m : ∀ e {s}, sound s → Mirrors see sound s (i.dispatch e) (j.dispatch e))
  (q : KeepsQueue see sound)

include m q

theorem drainLog_mirrors (fuel : Nat) {s : Session σ} (hs : sound s) :
    j.drainLog fuel (see s) = (i.drainLog fuel s).map (fun run => (run.1, run.2.1, see run.2.2)) ∧
      ∀ run, i.drainLog fuel s = some run → sound run.2.2 := by
  induction fuel generalizing s with
  | zero =>
    unfold Interpreter.drainLog
    rw [q.queue]
    cases s.queue with
    | nil =>
      refine ⟨rfl, fun run hrun => ?_⟩
      cases hrun
      exact hs
    | cons e rest => simp
  | succ fuel ih =>
    unfold Interpreter.drainLog
    rw [q.queue]
    cases s.queue with
    | nil =>
      refine ⟨rfl, fun run hrun => ?_⟩
      cases hrun
      exact hs
    | cons e rest =>
      obtain ⟨hwaiting, hs₁⟩ := q.waiting rest hs
      obtain ⟨heq, hs₂⟩ := m e hs₁
      simp only [← hwaiting, heq]
      revert hs₂
      generalize i.dispatch e { s with queue := rest } = result
      obtain ⟨o, s₂⟩ := result
      intro hs₂
      cases o with
      | error f =>
        refine ⟨rfl, fun run hrun => ?_⟩
        cases hrun
        exact hs₂
      | ok r =>
        obtain ⟨hrest, hsound⟩ := ih hs₂
        simp only [hrest, Option.map_map]
        refine ⟨rfl, fun run hrun => ?_⟩
        obtain ⟨run', hrun', rfl⟩ := Option.map_eq_some_iff.1 hrun
        exact hsound run' hrun'

theorem cycleLog_mirrors (fuel : Nat) (e : Event) {s : Session σ} (hs : sound s) :
    j.cycleLog fuel e (see s) =
        (i.cycleLog fuel e s).map (fun run => (run.1, run.2.1, see run.2.2)) ∧
      ∀ run, i.cycleLog fuel e s = some run → sound run.2.2 := by
  obtain ⟨heq, hs₁⟩ := m e hs
  unfold Interpreter.cycleLog
  simp only [heq]
  revert hs₁
  generalize i.dispatch e s = result
  obtain ⟨o, s₁⟩ := result
  intro hs₁
  cases o with
  | error f =>
    obtain ⟨hforget, hs₂⟩ := q.waiting [] hs₁
    refine ⟨by simp only [forget, Option.map_some, hforget], fun run hrun => ?_⟩
    cases hrun
    exact hs₂
  | ok answer =>
    obtain ⟨hdrain, hsound⟩ := drainLog_mirrors m q fuel hs₁
    simp only [hdrain]
    revert hsound
    generalize i.drainLog fuel s₁ = result
    intro hsound
    rcases result with _ | ⟨log, _ | _, s₂⟩
    · simp
    · obtain ⟨hforget, hs₃⟩ := q.waiting [] (hsound _ rfl)
      refine ⟨by simp only [forget, Option.map_some, hforget], fun run hrun => ?_⟩
      cases hrun
      exact hs₃
    · refine ⟨rfl, fun run hrun => ?_⟩
      cases hrun
      exact hsound _ rfl

end Cycles

section Runs

variable (m : ∀ e {s}, sound s → Mirrors see sound s (i.dispatch e) (j.dispatch e))
  (q : KeepsSending see sound)

include m q

theorem sendLog_mirrors (fuel : Nat) (e : Event) {s : Session σ} (hs : sound s) :
    j.sendLog fuel e (see s) = (i.sendLog fuel e s).map (fun run => (run.1, run.2.1, see run.2.2)) ∧
      ∀ run, i.sendLog fuel e s = some run → sound run.2.2 := by
  cases busy : s.dispatching with
  | true =>
    have busy' : (see s).dispatching = true := (q.dispatching s).trans busy
    have text : (see s).stateText = s.stateText := by rw [Session.stateText, q.live, Session.stateText]
    obtain ⟨waiting, hs₁⟩ := q.waiting (s.queue ++ [e]) hs
    rw [j.sendLog_of_dispatching busy', i.sendLog_of_dispatching busy, text, q.queue, ← waiting]
    refine ⟨rfl, fun run hrun => ?_⟩
    cases hrun
    exact hs₁
  | false =>
    obtain ⟨engaged, hs₁⟩ := q.turned true hs
    obtain ⟨heq, hsound⟩ := cycleLog_mirrors m q.toKeepsQueue fuel e hs₁
    rw [engaged] at heq
    have cycled : j.cycleLog fuel e (see s).engage = _ := heq
    rw [j.sendLog_of_idle ((q.dispatching s).trans busy), i.sendLog_of_idle busy, cycled]
    refine ⟨?_, fun run hrun => ?_⟩
    · simp only [Option.map_map]
      refine Option.map_congr fun run hrun => ?_
      have released := (q.turned false (hsound run hrun)).1
      exact congrArg (fun s => (run.1, run.2.1, s)) released.symm
    · obtain ⟨run', hcycle, rfl⟩ := Option.map_eq_some_iff.1 hrun
      exact (q.turned false (hsound run' hcycle)).2

theorem sendAllLog_mirrors (fuel : Nat) (es : List Event) {s : Session σ} (hs : sound s) :
    j.sendAllLog fuel es (see s) =
      (i.sendAllLog fuel es s).map fun run => (run.1, run.2.1, see run.2.2) := by
  induction es generalizing s with
  | nil => rfl
  | cons e rest ih =>
    obtain ⟨heq, hsound⟩ := sendLog_mirrors m q fuel e hs
    unfold Interpreter.sendAllLog
    rw [heq]
    cases hsend : i.sendLog fuel e s with
    | none => rfl
    | some run =>
      have hrest := ih (hsound run hsend)
      simp only [Option.map_some, Option.bind_eq_bind, Option.bind_some, hrest]
      cases i.sendAllLog fuel rest run.2.2 <;> rfl

theorem sendAll_mirrors (fuel : Nat) (es : List Event) {s : Session σ} (hs : sound s) :
    j.sendAll fuel es (see s) = (i.sendAll fuel es s).map (fun run => (run.1, see run.2)) := by
  rw [← map_sendAllLog, ← map_sendAllLog, sendAllLog_mirrors m q fuel es hs, Option.map_map,
    Option.map_map]
  rfl

end Runs

namespace Mirror

variable (m : Mirror i j see sound)

include m

theorem cycleLog (q : KeepsQueue see sound) (fuel : Nat) (e : Event) {s : Session σ}
    (hs : sound s) :
    j.cycleLog fuel e (see s) =
        (i.cycleLog fuel e s).map (fun run => (run.1, run.2.1, see run.2.2)) ∧
      ∀ run, i.cycleLog fuel e s = some run → sound run.2.2 :=
  cycleLog_mirrors m.shadow.dispatch_mirrors q fuel e hs

/-- The answers to events that are sent one after another are mirrored. -/
theorem sendAll (q : KeepsSending see sound) (fuel : Nat) (es : List Event) {s : Session σ}
    (hs : sound s) :
    j.sendAll fuel es (see s) = (i.sendAll fuel es s).map (fun run => (run.1, see run.2)) :=
  sendAll_mirrors m.shadow.dispatch_mirrors q fuel es hs

end Mirror

end TokenGate.Interpreter
