import TokenGate.Proofs.Play.Restart

/-!
# The game of the event at hand

The game that an event was sent to stays the one of the event at hand until its handling is over,
also if the game is started anew meanwhile. Whatever a play does within a permit to the games that
it can reach, what the permit preserves is still true of the game of the event at hand.
-/

namespace TokenGate

open Act Session

variable {σ α : Type} {p : Permit} {P : Context × Edits → Prop}

namespace Permit

/-- Everything is permitted. -/
def anything : Permit where
  fails _ := True
  sends := True
  starts := True
  changes _ _ := True
  refl _ := trivial
  trans _ _ := trivial

/-- Everything is permitted but to change a game. -/
def onlooking : Permit := { listening with fails := fun _ => True, sends := True, starts := True }

/-- What a permit allows takes no property from a game with the edits, and neither does what it
allows to be done to other games. -/
structure Spares (p : Permit) (P : Context × Edits → Prop) : Prop where
  changes : ∀ {v w}, p.changes v w → P v → P w
  others : ∀ {v w}, p.changes v w → ∀ c, P (c, v.2) → P (c, w.2)

theorem onlooking_spares (P : Context × Edits → Prop) : onlooking.Spares P where
  changes same h := same ▸ h
  others same _ h := same ▸ h

end Permit

theorem Play.within_anything (x : Play σ α) : x.Within .anything := by
  induction x with
  | done a => trivial
  | fail f => trivial
  | consult next ih => exact ih
  | remember change next ih => exact ih
  | look next ih => exact ih
  | lookLive next ih => exact ih
  | send e next ih => exact ⟨trivial, ih⟩
  | start next ih => exact ⟨trivial, ih⟩
  | alter change next ih => exact ⟨fun _ => trivial, ih⟩
  | subscribe c n next ih => exact ih
  | unsubscribe c n next ih => exact ih

namespace Surroundings

variable (S : Surroundings σ)

theorem watching_anything : S.Watching .anything :=
  ⟨fun _ => Play.within_anything _, fun _ => Play.within_anything _,
    fun _ _ => Play.within_anything _, fun _ _ => Play.within_anything _⟩

theorem acting_anything : S.Acting .anything := fun _ _ _ _ => Play.within_anything _

theorem judging_anything : S.Judging .anything := fun _ _ => Play.within_anything _

end Surroundings

namespace Session

variable {s s' : Session σ}

/-- A game is running, and the one of the event at hand has a property. -/
structure AtHand (P : Context × Edits → Prop) (s : Session σ) : Prop where
  started : s.live.isSome = true
  world : P s.world

theorem world_modifyCurrent (h : s.live.isSome = true) (f : Context → Context) :
    (s.modifyCurrent f).world = (f s.current, s.edits) := by
  rw [world, current_modifyCurrent h, edits_modifyCurrent]

namespace AtHand

theorem of_eq (h : s.AtHand P) (hl : s'.live = s.live) (hd : s'.detached = s.detached)
    (hs : s'.edits = s.edits) : s'.AtHand P := by
  have same : s'.world = s.world := by simp only [Session.world, current, hl, hd, hs]
  exact ⟨hl ▸ h.started, same ▸ h.world⟩

/-- The game of the event at hand may be changed together with the edits. -/
theorem alter (h : s.live.isSome = true) {f : Context → Context} {edits : Edits}
    (hf : P (f s.current, edits)) : AtHand P { s.modifyCurrent f with edits := edits } := by
  refine ⟨started_modifyCurrent h f, ?_⟩
  have changed : Session.current { s.modifyCurrent f with edits := edits } = f s.current :=
    current_modifyCurrent h f
  rwa [Session.world, changed]

theorem modifyCurrent (h : s.live.isSome = true) {f : Context → Context}
    (hf : P (f s.current, s.edits)) : (s.modifyCurrent f).AtHand P :=
  ⟨started_modifyCurrent h f, by rwa [world_modifyCurrent h]⟩

/-- The game that is detached by a new start is the one of the event at hand. -/
theorem restart (h : s.AtHand P) (a : Automaton) : (s.restart a).AtHand P := by
  refine ⟨rfl, ?_⟩
  have same : (s.restart a).current = s.current := by
    obtain ⟨c, hc⟩ := Option.isSome_iff_exists.1 h.started
    unfold Session.restart Session.startAs current
    cases hd : s.detached <;> simp [hc]
  have world : (s.restart a).world = s.world := by
    rw [Session.world, same]
    rfl
  exact world ▸ h.world

end AtHand

end Session

/-- Whatever a play does to its game, the one of the event at hand keeps what is spared. -/
theorem Stage.atHand_alter {g : Stage σ} (h : g.session.AtHand P) (spares : p.Spares P)
    {change : Context × Edits → Context × Edits} (hc : ∀ w, p.changes w (change w)) :
    (g.alter change).session.AtHand P := by
  have allowed := hc (g.game, g.session.edits)
  obtain ⟨s, hold⟩ := g
  cases hold with
  | current => exact .alter h.started (spares.changes allowed h.world)
  | live =>
    cases hd : s.detached with
    | none =>
      -- The running game is the one of the event at hand.
      have same : Stage.game ⟨s, .live⟩ = s.current := by simp [Stage.game, Session.current, hd]
      have altered := AtHand.alter (f := fun _ => (change (Stage.game ⟨s, .live⟩, s.edits)).1)
        h.started (spares.changes allowed (same ▸ h.world))
      simpa only [Stage.alter, Stage.modify, Session.modifyCurrent, hd] using altered
    | some old =>
      refine ⟨by simpa [Stage.alter, Stage.modify, Session.modifyLive] using h.started, ?_⟩
      have same : s.current = old := by simp [Session.current, hd]
      have spared := spares.others allowed old (same ▸ h.world)
      simpa [Stage.alter, Stage.modify, Session.modifyLive, Session.world, Session.current, hd]
        using spared
  | left c => exact ⟨h.started, spares.others allowed _ h.world⟩

namespace Interpreter

variable (i : Interpreter σ)

theorem atHand_report {s : Session σ} (h : s.AtHand P) (logger : String) (level : Level)
    (message : String) : (i.report logger level message s).AtHand P :=
  h.of_eq rfl rfl rfl

/-- A play that keeps to a permit spares the game of the event at hand what the permit does. -/
theorem make_atHand (spares : p.Spares P) {x : Play σ α} (hx : x.Within p) :
    (i.make x).Keeps (fun g => g.session.AtHand P) fun _ => True := by
  intro g hg
  induction x generalizing g with
  | done a => exact ⟨hg, nofun⟩
  | fail f => exact ⟨hg, fun _ _ => trivial⟩
  | consult next ih => exact ih _ (hx _) g hg
  | remember change next ih => exact ih hx _ (hg.of_eq rfl rfl rfl)
  | look next ih => exact ih _ _ (hx _ _) g hg
  | lookLive next ih => exact ih _ _ (hx _ _) g hg
  | send e next ih =>
    exact make_send_cases
      (P := fun made => made.2.session.AtHand P ∧ ∀ f, made.1 = .error f → True)
      (ih _ (hx.2 _) _ (hg.of_eq rfl rfl rfl)) (ih _ (hx.2 _) _ hg)
  | start next ih => exact ih hx.2 _ (i.atHand_report (hg.restart i.automaton) _ _ _)
  | alter change next ih => exact ih hx.2 _ (Stage.atHand_alter hg spares hx.1)
  | subscribe channel name next ih =>
    refine ih hx _ (hg.of_eq ?_ ?_ ?_) <;> cases channel <;> rfl
  | unsubscribe channel name next ih =>
    refine ih hx _ (hg.of_eq ?_ ?_ ?_) <;> cases channel <;> rfl

theorem perform_atHand (spares : p.Spares P) (hold : Hold) {x : Play σ α} (hx : x.Within p) :
    (i.perform hold x).Keeps (Session.AtHand P) fun _ => True :=
  (i.make_atHand spares hx).on (fun _ hs => hs) fun _ _ _ hg => hg

end Interpreter
end TokenGate
