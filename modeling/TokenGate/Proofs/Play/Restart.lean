import TokenGate.Proofs.Act.Keeps
import TokenGate.Proofs.Play.Permit

/-!
# Plays that may start the game anew

If the game may be started anew while an event is handled, the game that is running need not be the
one of the event at hand. A session holds a property if both have it. Performing a play that keeps
to a permit keeps every property that survives what the permit allows and, if new starts are
permitted, is one of new games.
-/

namespace TokenGate

open Act

variable {σ α : Type} {p q : Permit} {P Q : Context → Prop}

namespace Permit

/-- The same, and new starts are permitted. -/
def restarting (p : Permit) : Permit := { p with starts := True }

/-- What a permit allows takes no property from a game, and new games have it if they may be
started. -/
structure Preserves (p : Permit) (a : Automaton) (P : Context → Prop) : Prop where
  changes : ∀ {v w}, p.changes v w → P v.1 → P w.1
  fresh : p.starts → ∀ n, P (.fresh n a.tokenTypes a.definition.initial)

end Permit

/-- A game is running; it has a property, and so has the game of the event at hand. This is the
running one unless new starts are permitted, and no event waits unless events are. -/
structure Session.Holds (p : Permit) (P : Context → Prop) (s : Session σ) : Prop where
  started : s.live.isSome = true
  live : ∀ c, s.live = some c → P c
  detached : ∀ c, s.detached = some c → P c
  attached : ¬ p.starts → s.detached = none
  queue : ¬ p.sends → s.queue = []

namespace Session.Holds

variable {s s' : Session σ}

theorem of_live {c : Context} (hl : s.live = some c) (hd : s.detached = none) (hc : P c)
    (hq : ¬ p.sends → s.queue = []) : s.Holds p P where
  started := by rw [hl]; rfl
  live c' hc' := by
    cases hl.symm.trans hc'
    exact hc
  detached c' hc' := by cases hd.symm.trans hc'
  attached _ := hd
  queue := hq

/-- What touches neither a game nor the events that wait takes nothing away. -/
theorem of_eq (h : s.Holds p P) (hl : s'.live = s.live) (hd : s'.detached = s.detached)
    (hq : s'.queue = s.queue) : s'.Holds p P where
  started := hl ▸ h.started
  live c hc := h.live c (hl ▸ hc)
  detached c hc := h.detached c (hd ▸ hc)
  attached hn := hd.trans (h.attached hn)
  queue hn := hq.trans (h.queue hn)

theorem current (h : s.Holds p P) : P s.current := by
  obtain ⟨c, hc⟩ := Option.isSome_iff_exists.1 h.started
  unfold Session.current
  cases hd : s.detached with
  | none => simpa [hc] using h.live c hc
  | some c' => simpa using h.detached c' hd

theorem modifyLive (h : s.Holds p P) {f : Context → Context}
    (hf : ∀ c, s.live = some c → P (f c)) : (s.modifyLive f).Holds p P where
  started := by simpa [Session.modifyLive] using h.started
  live c hc := by
    obtain ⟨c', hc', rfl⟩ := Option.map_eq_some_iff.1 hc
    exact hf c' hc'
  detached := h.detached
  attached := h.attached
  queue := h.queue

/-- The game of the event at hand may come to have another property, which any other game must
have already. -/
theorem advance (h : s.Holds p P) (others : p.starts → ∀ c, P c → Q c) {f : Context → Context}
    (hf : Q (f s.current)) : (s.modifyCurrent f).Holds p Q := by
  have single (hd : s.detached = none) {c : Context} (hc : s.live = some c) : s.current = c := by
    simp [Session.current, hd, hc]
  unfold Session.modifyCurrent
  cases hd : s.detached with
  | none =>
    refine ⟨by simpa [Session.modifyLive] using h.started, fun c hc => ?_, fun c hc => ?_,
      h.attached, h.queue⟩
    · obtain ⟨c', hc', rfl⟩ := Option.map_eq_some_iff.1 hc
      rwa [← single hd hc']
    · cases hd.symm.trans hc
  | some old =>
    -- A game is detached only where new starts are permitted, and then the running one is another.
    have starts : p.starts := by
      apply Classical.byContradiction
      intro hn
      cases hd.symm.trans (h.attached hn)
    have same : s.current = old := by simp [Session.current, hd]
    refine ⟨h.started, fun c hc => others starts c (h.live c hc), fun c hc => ?_,
      fun hn => absurd starts hn, h.queue⟩
    cases hc
    rwa [← same]

theorem modifyCurrent (h : s.Holds p P) {f : Context → Context} (hf : P (f s.current)) :
    (s.modifyCurrent f).Holds p P :=
  h.advance (fun _ _ hc => hc) hf

theorem restart {a : Automaton} (h : s.Holds p P) (hp : p.Preserves a P) (starts : p.starts) :
    (s.restart a).Holds p P := by
  refine ⟨rfl, fun c hc => ?_, fun c hc => ?_, fun hn => absurd starts hn, fun _ => rfl⟩
  · cases hc
    exact hp.fresh starts _
  · cases hd : s.detached with
    | none =>
      refine h.live c ?_
      simpa [Session.restart, Session.startAs, hd] using hc
    | some old =>
      refine h.detached c ?_
      simpa [Session.restart, Session.startAs, hd] using hc

end Session.Holds

/-- Whatever a play does to its game, the session keeps the property. -/
theorem Stage.holds_alter {a : Automaton} {g : Stage σ} (h : g.session.Holds p P)
    (hp : p.Preserves a P) {change : Context × Edits → Context × Edits}
    (hc : ∀ w, p.changes w (change w)) : (g.alter change).session.Holds p P := by
  have changed : P g.game → P (change (g.game, g.session.edits)).1 :=
    hp.changes (hc (g.game, g.session.edits))
  obtain ⟨s, hold⟩ := g
  -- A game that nobody else knows any more is not part of the session.
  cases hold with
  | current => exact (h.modifyCurrent (changed h.current)).of_eq rfl rfl rfl
  | live =>
    refine (h.modifyLive fun c (hlive : s.live = some c) => ?_).of_eq rfl rfl rfl
    have same : Stage.game ⟨s, .live⟩ = c := by simp [Stage.game, hlive]
    exact changed (same ▸ h.live c hlive)
  | left c => exact h.of_eq rfl rfl rfl

namespace Interpreter

variable (i : Interpreter σ)

theorem holds_report {s : Session σ} (h : s.Holds p P) (logger : String) (level : Level)
    (message : String) : (i.report logger level message s).Holds p P :=
  h.of_eq rfl rfl rfl

/-- A play that keeps to a permit keeps what is preserved by one that allows no less. -/
theorem make_keeps (hp : p.Preserves i.automaton P) (below : q.Below p) {x : Play σ α}
    (hx : x.Within q) : (i.make x).Keeps (fun g => g.session.Holds p P) q.fails := by
  intro g hg
  induction x generalizing g with
  | done a => exact ⟨hg, nofun⟩
  | fail f =>
    refine ⟨hg, fun f' hf => ?_⟩
    cases hf
    exact hx
  | consult next ih => exact ih _ (hx _) g hg
  | remember change next ih => exact ih hx _ (hg.of_eq rfl rfl rfl)
  | look next ih => exact ih _ _ (hx _ _) g hg
  | lookLive next ih => exact ih _ _ (hx _ _) g hg
  | send e next ih =>
    refine make_send_cases
      (P := fun made => made.2.session.Holds p P ∧ ∀ f, made.1 = .error f → q.fails f)
      (ih _ (hx.2 _) _ ?_) (ih _ (hx.2 _) _ hg)
    exact ⟨hg.started, hg.live, hg.detached, hg.attached, fun hn => absurd (below.sends hx.1) hn⟩
  | start next ih => exact ih hx.2 _ (i.holds_report (hg.restart hp (below.starts hx.1)) _ _ _)
  | alter change next ih => exact ih hx.2 _ (Stage.holds_alter hg hp fun w => below.changes (hx.1 w))
  | subscribe channel name next ih =>
    refine ih hx _ (hg.of_eq ?_ ?_ ?_) <;> cases channel <;> rfl
  | unsubscribe channel name next ih =>
    refine ih hx _ (hg.of_eq ?_ ?_ ?_) <;> cases channel <;> rfl

theorem perform_keeps (hp : p.Preserves i.automaton P) (below : q.Below p) (hold : Hold)
    {x : Play σ α} (hx : x.Within q) : (i.perform hold x).Keeps (Session.Holds p P) q.fails :=
  (i.make_keeps hp below hx).on (fun _ hs => hs) fun _ _ _ hg => hg

section Watchers

variable {i} {I : Session σ → Prop} {F : Fault → Prop}

/-- What every single watcher keeps, all of them keep together. -/
theorem performAll_keeps {play : String → Play σ Unit}
    (each : ∀ name, (i.perform .live (play name)).Keeps I F) (names : List String) :
    (i.performAll play names).Keeps I F := by
  induction names with
  | nil => exact keeps_pure ()
  | cons name rest ih => exact (each name).bind fun _ => ih

theorem notify_keeps_of {n : Notice}
    (observer : (i.perform .live (i.surroundings.onTransition n)).Keeps I F)
    (each : ∀ name, (i.perform .live (i.surroundings.transitionWatcher name n)).Keeps I F) :
    (i.notify n).Keeps I F :=
  observer.bind fun _ => keeps_get_bind fun _ => performAll_keeps each _

theorem notifyLog_keeps_of {l : RuleLog}
    (observer : (i.perform .live (i.surroundings.onRuleLog l)).Keeps I F)
    (each : ∀ name, (i.perform .live (i.surroundings.logWatcher name l)).Keeps I F) :
    (i.notifyLog l).Keeps I F :=
  observer.bind fun _ => keeps_get_bind fun _ => performAll_keeps each _

end Watchers

theorem notify_keeps (hp : p.Preserves i.automaton P) (hw : i.surroundings.Watching p)
    (n : Notice) : (i.notify n).Keeps (Session.Holds p P) p.fails :=
  notify_keeps_of (i.perform_keeps hp (.refl p) .live (hw.onTransition n)) fun name =>
    i.perform_keeps hp (.refl p) .live (hw.transitionWatcher name n)

theorem notifyLog_keeps (hp : p.Preserves i.automaton P) (hw : i.surroundings.Watching p)
    (l : RuleLog) : (i.notifyLog l).Keeps (Session.Holds p P) p.fails :=
  notifyLog_keeps_of (i.perform_keeps hp (.refl p) .live (hw.onRuleLog l)) fun name =>
    i.perform_keeps hp (.refl p) .live (hw.logWatcher name l)

end Interpreter
end TokenGate
