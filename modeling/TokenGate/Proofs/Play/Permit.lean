import TokenGate.Proofs.Act.Ensures

/-!
# What plays are permitted to do

A permit says what a play may do besides looking on, remembering and watching: with which faults
it may give up, whether it may send events or start the game anew, and how it may change the game.
Performing a play that keeps to a permit without new starts leaves the running game running and
does to it, and to the events that wait, no more than the permit allows.
-/

namespace TokenGate

/-- What a play may do besides looking on. -/
structure Permit where
  fails : Fault → Prop
  sends : Prop
  starts : Prop
  changes : Context × Edits → Context × Edits → Prop
  refl : ∀ w, changes w w
  trans : ∀ {u v w}, changes u v → changes v w → changes u w

namespace Permit

/-- Everything is permitted but a new start and a change of one view of the game. -/
def keeping {α : Type} (view : Context → α) : Permit where
  fails _ := True
  sends := True
  starts := False
  changes v w := view w.1 = view v.1
  refl _ := rfl
  trans h₁ h₂ := h₂.trans h₁

/-- Nothing but looking on is permitted. -/
def listening : Permit where
  fails _ := False
  sends := False
  starts := False
  changes v w := w = v
  refl _ := rfl
  trans h₁ h₂ := h₂.trans h₁

/-- The same without giving up. -/
def calm (p : Permit) : Permit := { p with fails := fun _ => False }

/-- The same, and giving up is permitted. -/
def failing (p : Permit) : Permit := { p with fails := fun _ => True }

/-- The same without giving up and without events. -/
def hushed (p : Permit) : Permit := { p with fails := fun _ => False, sends := False }

/-- One permit allows no more than another to be done to a game. -/
structure Below (q p : Permit) : Prop where
  changes : ∀ {v w}, q.changes v w → p.changes v w
  sends : q.sends → p.sends
  starts : q.starts → p.starts

theorem Below.refl (p : Permit) : p.Below p := ⟨id, id, id⟩

theorem failing_below (p : Permit) : p.failing.Below p := ⟨id, id, id⟩

theorem below_failing (p : Permit) : p.Below p.failing := ⟨id, id, id⟩

/-- Looking on is permitted always. -/
theorem listening_below (p : Permit) : listening.Below p where
  changes same := by
    rw [same]
    exact p.refl _
  sends := False.elim
  starts := False.elim

/-- Whether data may be edited at will. -/
def AllowsData (p : Permit) : Prop :=
  ∀ c s edit, p.changes (c, s) (c, s ++ [edit])

/-- Whether applied effects may be noted. -/
def AllowsApplied (p : Permit) : Prop :=
  ∀ c s applied, p.changes (c, s) ({ c with applied := applied }, s)

end Permit

variable {σ α β : Type} {p : Permit}

/-- A play that keeps to a permit, whatever it is told. -/
def Play.Within (p : Permit) : Play σ α → Prop
  | .done _ => True
  | .fail f => p.fails f
  | .consult next => ∀ m, (next m).Within p
  | .remember _ next => next.Within p
  | .look next => ∀ c s, (next c s).Within p
  | .lookLive next => ∀ c s, (next c s).Within p
  | .send _ next => p.sends ∧ ∀ r, (next r).Within p
  | .start next => p.starts ∧ next.Within p
  | .alter change next => (∀ w, p.changes w (change w)) ∧ next.Within p
  | .subscribe _ _ next => next.Within p
  | .unsubscribe _ _ next => next.Within p

/-- A play that keeps to a permit keeps to every one that allows no less. -/
theorem Play.Within.weaken {q : Permit} (below : q.Below p) (fails : ∀ f, q.fails f → p.fails f)
    {x : Play σ α} (h : x.Within q) : x.Within p := by
  induction x with
  | done a => trivial
  | fail f => exact fails f h
  | consult next ih => exact fun m => ih m (h m)
  | remember change next ih => exact ih h
  | look next ih => exact fun c s => ih c s (h c s)
  | lookLive next ih => exact fun c s => ih c s (h c s)
  | send e next ih => exact ⟨below.sends h.1, fun r => ih r (h.2 r)⟩
  | start next ih => exact ⟨below.starts h.1, ih h.2⟩
  | alter change next ih => exact ⟨fun w => below.changes (h.1 w), ih h.2⟩
  | subscribe c n next ih => exact ih h
  | unsubscribe c n next ih => exact ih h

namespace Surroundings

variable (S : Surroundings σ)

/-- All who watch keep to a permit. -/
structure Watching (p : Permit) : Prop where
  onTransition : ∀ n, (S.onTransition n).Within p
  onRuleLog : ∀ l, (S.onRuleLog l).Within p
  transitionWatcher : ∀ name n, (S.transitionWatcher name n).Within p
  logWatcher : ∀ name l, (S.logWatcher name l).Within p

/-- All custom effects keep to a permit. -/
def Acting (p : Permit) : Prop :=
  ∀ name play, S.effects.get? name = some (.custom play) → ∀ payload, (play payload).Within p

/-- All predicates keep to a permit. -/
def Judging (p : Permit) : Prop :=
  ∀ key e, (S.predicate key e).Within p

/-- Custom effects keep to one permit, as built-in ones do, and those who watch or judge keep to
another one below it. No game is started anew. -/
structure KeepTo (p q : Permit) : Prop where
  below : q.Below p
  noStart : ¬ p.starts
  data : p.AllowsData
  applied : p.AllowsApplied
  acting : S.Acting p
  watching : S.Watching q.calm
  judging : S.Judging q

variable {S}

theorem KeepTo.noStart' {q : Permit} (h : S.KeepTo p q) : ¬ q.starts :=
  mt h.below.starts h.noStart

section Weaken

variable {q : Permit} (below : q.Below p) (fails : ∀ f, q.fails f → p.fails f)

include below fails

theorem Watching.weaken (h : S.Watching q) : S.Watching p where
  onTransition n := (h.onTransition n).weaken below fails
  onRuleLog l := (h.onRuleLog l).weaken below fails
  transitionWatcher name n := (h.transitionWatcher name n).weaken below fails
  logWatcher name l := (h.logWatcher name l).weaken below fails

theorem Acting.weaken (h : S.Acting q) : S.Acting p :=
  fun name play hplay payload => (h name play hplay payload).weaken below fails

theorem Judging.weaken (h : S.Judging q) : S.Judging p :=
  fun key e => (h key e).weaken below fails

end Weaken

theorem Acting.failing (h : S.Acting p) : S.Acting p.failing :=
  h.weaken p.below_failing fun _ _ => trivial

/-- Those who only look on keep to every permit. -/
theorem Watching.of_listening (h : S.Watching .listening) : S.Watching p :=
  h.weaken (Permit.listening_below p) fun _ => False.elim

/-- The usual effects are built in. -/
theorem get?_ne_custom_of_usual (h : S.effects = EffectHandler.usual) (name : String)
    (play : Data → Play σ Unit) : S.effects.get? name ≠ some (.custom play) := by
  intro hplay
  rw [h, EffectHandler.usual, Table.ofList] at hplay
  simp only [List.foldl_cons, List.foldl_nil, Table.get?_put, Table.get?_empty] at hplay
  split at hplay
  · cases hplay
  · split at hplay <;> cases hplay

/-- Of built-in effects there is nothing to permit. -/
theorem acting_of_usual (h : S.effects = EffectHandler.usual) : S.Acting p :=
  fun name play hplay => absurd hplay (get?_ne_custom_of_usual h name play)

end Surroundings

namespace Session

/-- The game of the event at hand with the edits that have been made. -/
def world (s : Session σ) : Context × Edits := (s.current, s.edits)

/-- A game is running, and it is the one of the event at hand. -/
structure Running (s : Session σ) : Prop where
  live : s.live.isSome = true
  detached : s.detached = none

/-- One session comes from another by what a permit allows. -/
structure Passes (p : Permit) (s s' : Session σ) : Prop where
  running : s'.Running
  changes : p.changes s.world s'.world
  queue : ¬ p.sends → s'.queue = s.queue

theorem Running.current_eq {s : Session σ} (h : s.Running) : s.live = some s.current := by
  obtain ⟨c, hc⟩ := Option.isSome_iff_exists.1 h.live
  simp [current, h.detached, hc]

theorem Running.detached_eq {s : Session σ} (h : s.Running) : { s with detached := none } = s := by
  rw [← h.detached]

theorem running_of_live {s : Session σ} {c : Context} (hl : s.live = some c)
    (hd : s.detached = none) : s.Running :=
  ⟨by rw [hl]; rfl, hd⟩

theorem started_modifyCurrent {s : Session σ} (h : s.live.isSome = true) (f : Context → Context) :
    (s.modifyCurrent f).live.isSome = true := by
  unfold modifyCurrent
  split
  · exact h
  · simpa [modifyLive] using h

theorem current_modifyCurrent {s : Session σ} (h : s.live.isSome = true) (f : Context → Context) :
    (s.modifyCurrent f).current = f s.current := by
  obtain ⟨c, hc⟩ := Option.isSome_iff_exists.1 h
  unfold modifyCurrent current
  cases hd : s.detached with
  | none => simp [modifyLive, hc, hd]
  | some old => rfl

theorem Running.modifyCurrent {s : Session σ} (h : s.Running) (f : Context → Context) :
    (s.modifyCurrent f).Running := by
  refine ⟨started_modifyCurrent h.live f, ?_⟩
  simp only [Session.modifyCurrent, h.detached, modifyLive]

theorem Running.current_modifyCurrent {s : Session σ} (h : s.Running) (f : Context → Context) :
    (s.modifyCurrent f).current = f s.current :=
  Session.current_modifyCurrent h.live f

theorem Running.modifyCurrent_eq {s : Session σ} (h : s.Running) {f g : Context → Context}
    (hfg : f s.current = g s.current) : s.modifyCurrent f = s.modifyCurrent g := by
  simp only [Session.modifyCurrent, h.detached, modifyLive, h.current_eq, Option.map_some, hfg]

@[simp] theorem edits_modifyCurrent (s : Session σ) (f : Context → Context) :
    (s.modifyCurrent f).edits = s.edits := by
  unfold modifyCurrent
  split <;> rfl

@[simp] theorem queue_modifyCurrent (s : Session σ) (f : Context → Context) :
    (s.modifyCurrent f).queue = s.queue := by
  unfold modifyCurrent
  split <;> rfl

@[simp] theorem dispatching_modifyCurrent (s : Session σ) (f : Context → Context) :
    (s.modifyCurrent f).dispatching = s.dispatching := by
  unfold modifyCurrent
  split <;> rfl

@[simp] theorem games_modifyCurrent (s : Session σ) (f : Context → Context) :
    (s.modifyCurrent f).games = s.games := by
  unfold modifyCurrent
  split <;> rfl

@[simp] theorem copies_modifyCurrent (s : Session σ) (f : Context → Context) :
    (s.modifyCurrent f).copies = s.copies := by
  unfold modifyCurrent
  split <;> rfl

@[simp] theorem memory_modifyCurrent (s : Session σ) (f : Context → Context) :
    (s.modifyCurrent f).memory = s.memory := by
  unfold modifyCurrent
  split <;> rfl

namespace Passes

theorem refl {s : Session σ} (h : s.Running) : Passes p s s := ⟨h, p.refl _, fun _ => rfl⟩

theorem trans {s s' s'' : Session σ} (h₁ : Passes p s s') (h₂ : Passes p s' s'') :
    Passes p s s'' :=
  ⟨h₂.running, p.trans h₁.changes h₂.changes, fun hn => (h₂.queue hn).trans (h₁.queue hn)⟩

theorem weaken {q : Permit} {s s' : Session σ} (h : Passes q s s') (below : q.Below p) :
    Passes p s s' :=
  ⟨h.running, below.changes h.changes, fun hn => h.queue (mt below.sends hn)⟩

end Passes

/-- What touches neither the game nor the events that wait is always allowed. -/
theorem passes_of_eq {s s' : Session σ} (h : s.Running) (hl : s'.live = s.live)
    (hd : s'.detached = s.detached) (hs : s'.edits = s.edits) (hq : s'.queue = s.queue) :
    Passes p s s' := by
  refine ⟨⟨hl ▸ h.live, hd.trans h.detached⟩, ?_, fun _ => hq⟩
  have : s'.world = s.world := by simp only [world, current, hl, hd, hs]
  rw [this]
  exact p.refl _

theorem passes_copied {s : Session σ} (h : s.Running) : Passes p s s.copied :=
  passes_of_eq h rfl rfl rfl rfl

theorem passes_edit {s : Session σ} {edit : Edit} (h : s.Running)
    (he : p.changes s.world (s.current, s.edits ++ [edit])) : Passes p s (s.edit edit) :=
  ⟨⟨h.live, h.detached⟩, he, fun _ => rfl⟩

theorem passes_modifyCurrent {s : Session σ} {f : Context → Context} (h : s.Running)
    (hf : p.changes s.world (f s.current, s.edits)) : Passes p s (s.modifyCurrent f) := by
  refine ⟨h.modifyCurrent f, ?_, fun _ => s.queue_modifyCurrent f⟩
  simpa only [world, h.current_modifyCurrent, edits_modifyCurrent] using hf

end Session

namespace Stage

/-- The play is about the running game. -/
structure Present (g : Stage σ) : Prop where
  running : g.session.Running
  hold : g.hold = .current ∨ g.hold = .live

theorem Present.game_eq {g : Stage σ} (h : g.Present) : g.game = g.session.current := by
  unfold game
  rcases h.hold with hold | hold <;> rw [hold]
  rw [h.running.current_eq]
  rfl

theorem Present.stateText_eq {g : Stage σ} (h : g.Present) :
    g.session.stateText = g.game.state.text := by
  rw [h.game_eq, Session.stateText, h.running.current_eq]

theorem Present.modify {g : Stage σ} (h : g.Present) (f : Context → Context) :
    g.modify f = { g with session := g.session.modifyCurrent f } := by
  unfold Stage.modify
  rcases h.hold with hold | hold <;> rw [hold]
  simp only [Session.modifyCurrent, h.running.detached]

/-- One stage comes from another, about the running game both, by what a permit allows. -/
structure Passes (p : Permit) (g g' : Stage σ) : Prop where
  hold : g'.hold = g.hold
  session : g.session.Passes p g'.session

/-- A stage that an activity leads to as permitted, unless the activity is given up otherwise. -/
def Permitted (p : Permit) (g : Stage σ) (o : Except Fault α) (g' : Stage σ) : Prop :=
  g.Passes p g' ∧ ∀ f, o = .error f → p.fails f

theorem Passes.present {g g' : Stage σ} (h : g.Passes p g') (hg : g.Present) : g'.Present :=
  ⟨h.session.running, h.hold ▸ hg.hold⟩

/-- What is permitted may be done after what is permitted. -/
theorem Passes.andThen {g g' : Stage σ} {x : Act (Stage σ) α} (h : g.Passes p g')
    (hx : x.Ensures g' (g'.Permitted p)) : x.Ensures g' (g.Permitted p) :=
  hx.mono fun _ _ hp =>
    ⟨⟨hp.1.hold.trans h.hold, h.session.trans hp.1.session⟩, hp.2⟩

/-- What touches neither the game nor the events that wait is always allowed. -/
theorem Present.passes_aside {g g' : Stage σ} (h : g.Present) (hhold : g'.hold = g.hold)
    (hl : g'.session.live = g.session.live) (hd : g'.session.detached = g.session.detached)
    (hs : g'.session.edits = g.session.edits) (hq : g'.session.queue = g.session.queue) :
    g.Passes p g' :=
  ⟨hhold, Session.passes_of_eq h.running hl hd hs hq⟩

theorem Present.passes_alter {g : Stage σ} (h : g.Present)
    {change : Context × Edits → Context × Edits} (hc : ∀ w, p.changes w (change w)) :
    g.Passes p (g.alter change) := by
  have allowed := hc (g.game, g.session.edits)
  generalize hw : change (g.game, g.session.edits) = w at allowed
  have hrun := h.running.modifyCurrent fun _ => w.1
  simp only [Stage.alter, h.modify, hw]
  refine ⟨rfl, ⟨hrun.live, hrun.detached⟩, ?_, fun _ => Session.queue_modifyCurrent _ _⟩
  show p.changes (g.session.current, g.session.edits)
    ((g.session.modifyCurrent fun _ => w.1).current, w.2)
  rw [h.running.current_modifyCurrent, ← h.game_eq]
  exact allowed

end Stage

namespace Interpreter

variable (i : Interpreter σ)

/-- A play that keeps to a permit without new starts does no more than permitted. -/
theorem make_ensures (noStart : ¬ p.starts) {x : Play σ α} (hx : x.Within p) {g : Stage σ}
    (hg : g.Present) : (i.make x).Ensures g (g.Permitted p) := by
  induction x generalizing g with
  | done a => exact ⟨⟨rfl, .refl hg.running⟩, nofun⟩
  | fail f =>
    refine ⟨⟨rfl, .refl hg.running⟩, fun f' hf => ?_⟩
    cases hf
    exact hx
  | consult next ih => exact ih _ (hx _) hg
  | remember change next ih =>
    have hpass : g.Passes p { g with session.memory := change g.session.memory } :=
      hg.passes_aside rfl rfl rfl rfl rfl
    exact hpass.andThen (ih hx (hpass.present hg))
  | look next ih => exact ih _ _ (hx _ _) hg
  | lookLive next ih => exact ih _ _ (hx _ _) hg
  | send e next ih =>
    have hpass : g.Passes p { g with session.queue := g.session.queue ++ [e] } :=
      ⟨rfl, ⟨hg.running.live, hg.running.detached⟩, p.refl _, fun hn => absurd hx.1 hn⟩
    exact make_send_cases (P := fun made => g.Permitted p made.1 made.2)
      (hpass.andThen (ih _ (hx.2 _) (hpass.present hg))) (ih _ (hx.2 _) hg)
  | start next ih => exact absurd hx.1 noStart
  | alter change next ih =>
    have hpass := hg.passes_alter hx.1
    exact hpass.andThen (ih hx.2 (hpass.present hg))
  | subscribe channel name next ih =>
    have hpass : g.Passes p { g with session := g.session.subscribe channel name } := by
      refine hg.passes_aside rfl ?_ ?_ ?_ ?_ <;> cases channel <;> rfl
    exact hpass.andThen (ih hx (hpass.present hg))
  | unsubscribe channel name next ih =>
    have hpass : g.Passes p { g with session := g.session.unsubscribe channel name } := by
      refine hg.passes_aside rfl ?_ ?_ ?_ ?_ <;> cases channel <;> rfl
    exact hpass.andThen (ih hx (hpass.present hg))

end Interpreter
end TokenGate
