import TokenGate.Proofs.Act.Keeps
import TokenGate.Proofs.Play.Permit

/-!
# Plays that only look on and send events

A play that does nothing but look on, remember, watch and send events is never given up and leaves
all games as they are, whichever of them is the one of the event at hand.
-/

namespace TokenGate

open Act

variable {σ α : Type} {p : Permit}

namespace Permit

/-- Nothing but looking on and sending events is permitted. -/
def attending : Permit := { listening with sends := True }

/-- Everything is permitted but giving up. -/
def unfailing : Permit where
  fails _ := False
  sends := True
  starts := True
  changes _ _ := True
  refl _ := trivial
  trans _ _ := trivial

theorem attending_below (sends : p.sends) : attending.Below p where
  changes same := by
    rw [same]
    exact p.refl _
  sends _ := sends
  starts := False.elim

end Permit

/-- Nothing has happened to a game, nor to any data. -/
structure Session.SameGames (s s' : Session σ) : Prop where
  live : s'.live = s.live
  detached : s'.detached = s.detached
  edits : s'.edits = s.edits

namespace Session.SameGames

variable {s s' s'' : Session σ}

theorem refl (s : Session σ) : s.SameGames s := ⟨rfl, rfl, rfl⟩

theorem trans (h : s.SameGames s') (h' : s'.SameGames s'') : s.SameGames s'' :=
  ⟨h'.live.trans h.live, h'.detached.trans h.detached, h'.edits.trans h.edits⟩

theorem current (h : s.SameGames s') : s'.current = s.current := by
  rw [Session.current, Session.current, h.live, h.detached]

end Session.SameGames

/-- Whatever game a play is about, it may be put in its own place. -/
theorem Stage.alter_self (g : Stage σ) {change : Context × Edits → Context × Edits}
    (hc : ∀ w, change w = w) : g.alter change = g := by
  obtain ⟨⟨live, detached, queue, dispatching, watchers, logWatchers, edits, games, copies, memory⟩,
    hold⟩ := g
  cases hold with
  | current =>
    cases detached with
    | some c => simp only [alter, modify, Session.modifyCurrent, hc, game, Session.current]; rfl
    | none =>
      cases live <;>
        simp only [alter, modify, Session.modifyCurrent, Session.modifyLive, hc, game,
          Session.current] <;> rfl
  | live =>
    cases live <;> simp only [alter, modify, Session.modifyLive, hc, game] <;> rfl
  | left c => simp only [alter, modify, hc, game]

namespace Interpreter

variable {i : Interpreter σ}

/-- The faults that a play can be given up with are those that it is permitted. -/
theorem make_fails {x : Play σ α} (hx : x.Within p) (g : Stage σ) {f : Fault}
    (hf : (i.make x g).1 = .error f) : p.fails f := by
  induction x generalizing g with
  | done a => cases hf
  | fail f' =>
    cases hf
    exact hx
  | consult next ih => exact ih _ (hx _) g hf
  | remember change next ih => exact ih hx _ hf
  | look next ih => exact ih _ _ (hx _ _) g hf
  | lookLive next ih => exact ih _ _ (hx _ _) g hf
  | send e next ih =>
    revert hf
    exact make_send_cases (P := fun made => made.1 = .error f → p.fails f) (ih _ (hx.2 _) _)
      (ih _ (hx.2 _) _)
  | start next ih => exact ih hx.2 _ hf
  | alter change next ih => exact ih hx.2 _ hf
  | subscribe c n next ih => exact ih hx _ hf
  | unsubscribe c n next ih => exact ih hx _ hf

theorem perform_fails {x : Play σ α} (hx : x.Within p) (hold : Hold) (s : Session σ) :
    (i.perform hold x).Ensures s fun o _ => ∀ f, o = .error f → p.fails f :=
  Ensures.on fun _ hf => make_fails hx ⟨s, hold⟩ hf

theorem make_attending {x : Play σ α} (hx : x.Within .attending) (g : Stage σ) :
    g.session.SameGames (i.make x g).2.session := by
  induction x generalizing g with
  | done a => exact .refl _
  | fail f => exact .refl _
  | consult next ih => exact ih _ (hx _) g
  | remember change next ih =>
    have noted : g.session.SameGames { g.session with memory := change g.session.memory } :=
      ⟨rfl, rfl, rfl⟩
    exact noted.trans (ih hx ⟨_, g.hold⟩)
  | look next ih => exact ih _ _ (hx _ _) g
  | lookLive next ih => exact ih _ _ (hx _ _) g
  | send e next ih =>
    have sent : g.session.SameGames { g.session with queue := g.session.queue ++ [e] } :=
      ⟨rfl, rfl, rfl⟩
    exact make_send_cases (P := fun made => g.session.SameGames made.2.session)
      (sent.trans (ih _ (hx.2 _) ⟨_, g.hold⟩)) (ih _ (hx.2 _) g)
  | start next ih => exact hx.1.elim
  | alter change next ih =>
    have same := ih hx.2 (g.alter change)
    have unaltered : (g.alter change).session = g.session :=
      congrArg Stage.session (g.alter_self hx.1)
    exact unaltered ▸ same
  | subscribe c n next ih =>
    have added : g.session.SameGames (g.session.subscribe c n) := by
      cases c <;> exact ⟨rfl, rfl, rfl⟩
    exact added.trans (ih hx ⟨_, g.hold⟩)
  | unsubscribe c n next ih =>
    have removed : g.session.SameGames (g.session.unsubscribe c n) := by
      cases c <;> exact ⟨rfl, rfl, rfl⟩
    exact removed.trans (ih hx ⟨_, g.hold⟩)

/-- Whoever only looks on and sends events does not give up and does nothing to a game. -/
theorem perform_attending {x : Play σ Unit} (hx : x.Within .attending) (hold : Hold)
    (s : Session σ) :
    (i.perform hold x).Ensures s fun o s' => o = .ok () ∧ s.SameGames s' := by
  have fails := i.perform_fails hx hold s
  have same : (i.perform hold x).Ensures s fun _ s' => s.SameGames s' :=
    Ensures.on (make_attending hx ⟨s, hold⟩)
  refine ⟨?_, same⟩
  rw [Ensures] at fails
  generalize (i.perform hold x s).1 = o at fails
  cases o with
  | ok _ => rfl
  | error f => exact (fails f rfl).elim

end Interpreter
end TokenGate
