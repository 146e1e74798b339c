import TokenGate.Proofs.Interpreter.Shadow
import TokenGate.Proofs.Play.Permit

/-!
# Interpreters that mirror each other

Two interpreters with the same automaton and the same behaviour may differ in their surroundings.
If what the surroundings of one do is mirrored by what those of the other do, then a whole
dispatch is mirrored: it has the same answer, and it leads to sessions that are seen as the same.
-/

namespace TokenGate

open Act Handling

variable {σ τ α : Type}

/-- How an effect of one interpreter is mirrored by one of another: built-in effects by themselves,
custom ones if what they do is mirrored. -/
inductive EffectHandler.Mirrored (i : Interpreter σ) (j : Interpreter τ)
    (see : Session σ → Session τ) (sound : Session σ → Prop) :
    Option (EffectHandler σ) → Option (EffectHandler τ) → Prop where
  | none : Mirrored i j see sound none none
  | setFlag : Mirrored i j see sound (some .setFlag) (some .setFlag)
  | removePiece : Mirrored i j see sound (some .removePiece) (some .removePiece)
  | custom {x : Data → Play σ Unit} {y : Data → Play τ Unit}
      (mirrors : ∀ payload {s}, sound s →
        Mirrors see sound s (i.perform .current (x payload)) (j.perform .current (y payload))) :
      Mirrored i j see sound (some (.custom x)) (some (.custom y))

/-- One interpreter mirrors another: `see` says how the sessions of one are seen as sessions of
the other, as long as they are sound. -/
structure Interpreter.Mirror (i : Interpreter σ) (j : Interpreter τ)
    (see : Session σ → Session τ) (sound : Session σ → Prop) : Prop where
  automaton : j.automaton = i.automaton
  config : j.config = i.config
  running : ∀ {s}, sound s → s.Running
  live : ∀ s, (see s).live = s.live
  detached : ∀ s, (see s).detached = s.detached
  edits : ∀ s, (see s).edits = s.edits
  copies : ∀ s, (see s).copies = s.copies
  report : ∀ logger level message {s}, sound s →
    see (i.report logger level message s) = j.report logger level message (see s) ∧
      sound (i.report logger level message s)
  write : ∀ c edits {s}, sound s →
    see { s with live := some c, edits := edits } =
      { see s with live := some c, edits := edits } ∧
    sound { s with live := some c, edits := edits }
  copied : ∀ {s}, sound s → see s.copied = (see s).copied ∧ sound s.copied
  effect : ∀ name, EffectHandler.Mirrored i j see sound
    (i.surroundings.effects.get? name) (j.surroundings.effects.get? name)
  judge : ∀ {c key}, i.automaton.Binds (.constraint c) → c.gate = .external key →
    ∀ e {s}, sound s → Mirrors see sound s
      (i.perform .current (i.surroundings.predicate key e))
      (j.perform .current (j.surroundings.predicate key e))
  notify : ∀ n {s}, sound s → Mirrors see sound s (i.notify n) (j.notify n)
  notifyLog : ∀ l {s}, sound s → Mirrors see sound s (i.notifyLog l) (j.notifyLog l)

section Watchers

variable {see : Session σ → Session τ} {sound : Session σ → Prop}

/-- Watchers that mirror each other one by one do so together. -/
theorem mirrors_performAll {i : Interpreter σ} {j : Interpreter τ} {x : String → Play σ Unit}
    {y : String → Play τ Unit}
    (hxy : ∀ name {s}, sound s →
      Mirrors see sound s (i.perform .live (x name)) (j.perform .live (y name)))
    (names : List String) {s : Session σ} (hs : sound s) :
    Mirrors see sound s (i.performAll x names) (j.performAll y names) := by
  induction names generalizing s with
  | nil => exact mirrors_pure hs _
  | cons name rest ih => exact (hxy name hs).bind fun _ s' hs' => ih hs'

end Watchers

namespace Interpreter.Mirror

variable {i : Interpreter σ} {j : Interpreter τ} {see : Session σ → Session τ}
  {sound : Session σ → Prop} {s : Session σ}

theorem current (m : Mirror i j see sound) (s : Session σ) : (see s).current = s.current := by
  simp only [Session.current, m.live, m.detached]

theorem running_see (m : Mirror i j see sound) (hs : sound s) : (see s).Running := by
  have hrun := m.running hs
  refine Session.running_of_live (c := s.current) ?_ ((m.detached s).trans hrun.detached)
  rw [m.live, hrun.current_eq]

theorem modifyCurrent (m : Mirror i j see sound) (hs : sound s) (f : Context → Context) :
    see (s.modifyCurrent f) = (see s).modifyCurrent f ∧ sound (s.modifyCurrent f) := by
  have hrun := m.running hs
  have seen := m.running_see hs
  have written := m.write (f s.current) s.edits hs
  simp only [Session.modifyCurrent, hrun.detached, seen.detached, Session.modifyLive,
    hrun.current_eq, seen.current_eq, Option.map_some, m.current]
  simpa only [hrun.detached, seen.detached, ← m.edits] using written

theorem edit (m : Mirror i j see sound) (hs : sound s) (edit : Edit) :
    see (s.edit edit) = (see s).edit edit ∧ sound (s.edit edit) := by
  have written := m.write s.current (s.edits ++ [edit]) hs
  rw [← (m.running hs).current_eq] at written
  refine ⟨written.1.trans ?_, written.2⟩
  rw [Session.edit, m.edits, ← m.live]

/-- What mirrors an interpreter shadows it and never loses it. -/
theorem shadow (m : Mirror i j see sound) : Shadow i j (Seen see sound) fun _ => False where
  automaton := m.automaton
  config := m.config
  live := by
    rintro s t ⟨rfl, -⟩
    exact m.live s
  detached := by
    rintro s t ⟨rfl, -⟩
    exact m.detached s
  edits := by
    rintro s t ⟨rfl, -⟩
    exact m.edits s
  settle := by
    rintro s t ⟨rfl, hs⟩
    have hrun := m.running hs
    have seen : (see s).detached = none := (m.detached s).trans hrun.detached
    rw [hrun.detached_eq, ← seen]
    exact ⟨rfl, hs⟩
  report logger level message := by
    rintro s t ⟨rfl, hs⟩
    obtain ⟨heq, hsound⟩ := m.report logger level message hs
    exact ⟨heq.symm, hsound⟩
  reportAstray _ _ _ _ := False.elim
  copies := by
    rintro s t ⟨rfl, -⟩
    exact m.copies s
  modifyCurrent f := by
    refine shadows_change ?_ False.elim
    rintro s t ⟨rfl, hs⟩
    obtain ⟨heq, hsound⟩ := m.modifyCurrent hs f
    exact ⟨heq.symm, hsound⟩
  edit edit := by
    refine shadows_change ?_ False.elim
    rintro s t ⟨rfl, hs⟩
    obtain ⟨heq, hsound⟩ := m.edit hs edit
    exact ⟨heq.symm, hsound⟩
  copied := by
    refine shadows_change ?_ False.elim
    rintro s t ⟨rfl, hs⟩
    obtain ⟨heq, hsound⟩ := m.copied hs
    exact ⟨heq.symm, hsound⟩
  effect name := by
    have handler := m.effect name
    revert handler
    generalize i.surroundings.effects.get? name = x
    generalize j.surroundings.effects.get? name = y
    intro handler
    cases handler with
    | none => exact .none
    | setFlag => exact .setFlag
    | removePiece => exact .removePiece
    | custom mirrors => exact .custom fun payload => shadows_of_mirrors (mirrors payload)
  judge hc hkey e := shadows_of_mirrors (m.judge hc hkey e)
  notify n := shadows_of_mirrors (m.notify n)
  notifyLog l := shadows_of_mirrors (m.notifyLog l)

/-- A dispatch is mirrored. -/
theorem dispatch (m : Mirror i j see sound) (hs : sound s) (e : Event) :
    Mirrors see sound s (i.dispatch e) (j.dispatch e) :=
  m.shadow.dispatch_mirrors e hs

end Interpreter.Mirror
end TokenGate
