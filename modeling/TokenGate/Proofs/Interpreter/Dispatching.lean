import TokenGate.Proofs.Interpreter.Invariants
import TokenGate.Proofs.Interpreter.Reachable
import TokenGate.Proofs.Play.AtHand

/-!
# What a session keeps account of

A session knows whether an event is being dispatched. A send says so before it dispatches its event
and takes it back when all is over, whether something has failed or not; nothing that happens in
between changes it. So it is said throughout every play, and the events that plays send wait. A
session also counts the snapshots and numbers the games: one snapshot is made of every transition,
and there is another game only where one is started.
-/

namespace TokenGate

open Act

variable {σ α : Type} {p : Permit} {P : Bool → Nat → Nat → Prop}

/-- Whether an event is being dispatched, how many snapshots have been made, and which game was
started last. -/
def Session.account (s : Session σ) : Bool × Nat × Nat := (s.dispatching, s.copies, s.games)

/-- Something is true of whether an event is being dispatched, of how many snapshots have been made,
and of the game that was started last. -/
def Session.Flagged (P : Bool → Nat → Nat → Prop) (s : Session σ) : Prop :=
  P s.dispatching s.copies s.games

theorem Session.Flagged.modifyCurrent {s : Session σ} (h : s.Flagged P) (f : Context → Context) :
    (s.modifyCurrent f).Flagged P := by
  rw [Flagged, dispatching_modifyCurrent, copies_modifyCurrent, games_modifyCurrent]
  exact h

theorem Stage.flagged_alter {g : Stage σ} (h : g.session.Flagged P)
    (change : Context × Edits → Context × Edits) : (g.alter change).session.Flagged P := by
  obtain ⟨s, hold⟩ := g
  cases hold with
  | current => exact h.modifyCurrent _
  | live => exact h
  | left c => exact h

namespace Interpreter

variable {i : Interpreter σ}

section Plays

variable (another : p.starts → ∀ {b n g g'}, P b n g → P b n g')

include another

/-- No move of a play changes anything about this, but that new games may be started. -/
theorem make_flagged {x : Play σ α} (hx : x.Within p) :
    (i.make x).Keeps (fun g => g.session.Flagged P) fun _ => True := by
  intro g hg
  induction x generalizing g with
  | done a => exact ⟨hg, fun _ _ => trivial⟩
  | fail f => exact ⟨hg, fun _ _ => trivial⟩
  | consult next ih => exact ih _ (hx _) g hg
  | remember change next ih => exact ih hx _ hg
  | look next ih => exact ih _ _ (hx _ _) g hg
  | lookLive next ih => exact ih _ _ (hx _ _) g hg
  | send e next ih =>
    exact make_send_cases
      (P := fun made => made.2.session.Flagged P ∧ ∀ f, made.1 = .error f → True)
      (ih _ (hx.2 _) _ hg) (ih _ (hx.2 _) _ hg)
  | start next ih => exact ih hx.2 _ (another hx.1 hg)
  | alter change next ih => exact ih hx.2 _ (Stage.flagged_alter hg change)
  | subscribe channel name next ih =>
    refine ih hx _ ?_
    cases channel <;> exact hg
  | unsubscribe channel name next ih =>
    refine ih hx _ ?_
    cases channel <;> exact hg

theorem perform_flagged (hold : Hold) {x : Play σ α} (hx : x.Within p) :
    (i.perform hold x).Keeps (Session.Flagged P) fun _ => True :=
  (make_flagged another hx).on (fun _ hs => hs) fun _ _ _ hg => hg

theorem notify_flagged (hw : i.surroundings.Watching p) (n : Notice) :
    (i.notify n).Keeps (Session.Flagged P) fun _ => True :=
  notify_keeps_of (perform_flagged another .live (hw.onTransition n)) fun name =>
    perform_flagged another .live (hw.transitionWatcher name n)

theorem notifyLog_flagged (hw : i.surroundings.Watching p) (l : RuleLog) :
    (i.notifyLog l).Keeps (Session.Flagged P) fun _ => True :=
  notifyLog_keeps_of (perform_flagged another .live (hw.onRuleLog l)) fun name =>
    perform_flagged another .live (hw.logWatcher name l)

theorem retains_flagged (ha : i.surroundings.Acting p) (hj : i.surroundings.Judging p) (e : Event) :
    i.Retains e (Session.Flagged P) (Session.Flagged P) fun _ => True := by
  have withstands : i.Withstands e (Session.Flagged P) fun _ => True :=
    { report := fun _ _ _ _ hs => hs
      grant := fun _ hs => hs.modifyCurrent _
      charge := fun _ hs _ => hs.modifyCurrent _
      noEntry := fun _ _ _ => trivial
      applied := fun _ _ hs => hs.modifyCurrent _ }
  refine withstands.retains (fun _ => ?_) fun _ _ => perform_flagged another .current (hj _ _)
  exact applyEffect_keeps (fun _ hs _ => hs) (fun _ hs _ => hs) fun heffect =>
    perform_flagged another .current (ha _ _ heffect _)

theorem dispatch_flagged (hw : i.surroundings.Watching p) (ha : i.surroundings.Acting p)
    (hj : i.surroundings.Judging p) (copied : ∀ {b n g}, P b n g → P b (n + 1) g) (e : Event) :
    (i.dispatch e).Keeps (Session.Flagged P) fun _ => True :=
  (retains_flagged another ha hj e).dispatch (notifyLog_flagged another hw)
    (notify_flagged another hw) (fun _ _ _ _ hs => hs.modifyCurrent _) copied fun hs => hs

end Plays

/-- A dispatch does not change whether an event is being dispatched. -/
theorem dispatching_dispatch (i : Interpreter σ) (e : Event) (s : Session σ) :
    (i.dispatch e s).2.dispatching = s.dispatching :=
  (dispatch_flagged (p := .anything) (P := fun b _ _ => b = s.dispatching) (fun _ => id)
    i.surroundings.watching_anything i.surroundings.acting_anything
    i.surroundings.judging_anything id e s rfl).1

/-- Where no game is started anew, a dispatch does not change which one was started last. -/
theorem games_dispatch (noStart : ¬ p.starts) (hw : i.surroundings.Watching p)
    (ha : i.surroundings.Acting p) (hj : i.surroundings.Judging p) (e : Event) (s : Session σ) :
    (i.dispatch e s).2.games = s.games :=
  (dispatch_flagged (P := fun _ _ g => g = s.games) (fun starts => absurd starts noStart)
    hw ha hj id e s rfl).1

/-- To those who only look on, nothing happens that a session keeps account of. -/
theorem account_notify (hw : i.surroundings.Watching p) (noStart : ¬ p.starts) (n : Notice)
    (s : Session σ) : (i.notify n s).2.account = s.account :=
  (notify_flagged (P := fun b k g => (b, k, g) = s.account) (fun starts => absurd starts noStart)
    hw n s rfl).1

theorem account_notifyLog (hw : i.surroundings.Watching p) (noStart : ¬ p.starts) (l : RuleLog)
    (s : Session σ) : (i.notifyLog l s).2.account = s.account :=
  (notifyLog_flagged (P := fun b k g => (b, k, g) = s.account) (fun starts => absurd starts noStart)
    hw l s rfl).1

/-- No snapshot is made while a rule is handled. -/
theorem copies_handle {state : State} {edge : Edge} {e : Event}
    (found : i.automaton.edge? state e.type = some edge) (s : Session σ) :
    (i.handle edge e).Ensures s fun _ s₁ => s₁.copies = s.copies :=
  ((retains_flagged (P := fun _ n _ => n = s.copies) (fun _ => id)
    i.surroundings.acting_anything i.surroundings.judging_anything e).handle
      (notifyLog_flagged (fun _ => id) i.surroundings.watching_anything) found s rfl).1

theorem copies_follow {state : State} {edge : Edge} {e : Event}
    (found : i.automaton.edge? state e.type = some edge) (s : Session σ) :
    (i.follow edge e).Ensures s fun o s' => ∀ r, o = .ok r →
      s'.copies = s.copies + if r.transitioned then 1 else 0 := by
  have moved (s₁ : Session σ) : (i.move edge e).Ensures s₁ fun o s₂ =>
      o = .ok () → s₂.copies = s₁.copies + 1 := by
    simp only [Ensures, move]
    split
    · intro h
      cases h
    · intro _
      refine (notify_flagged (P := fun _ n _ => n = s₁.copies + 1) (fun _ => id)
        i.surroundings.watching_anything _ _ ?_).1
      exact congrArg (· + 1) (s₁.copies_modifyCurrent _)
  refine Ensures.bind (copies_handle found s) (fun answer s₁ same => ?_)
    (fun f s₁ _ r hr => by cases hr)
  cases answer with
  | error f =>
    intro r hr
    cases hr
    exact same
  | ok g =>
    refine Ensures.bind (moved s₁) (fun _ s₂ more => ?_) (fun f s₂ _ r hr => by cases hr)
    intro r hr
    cases hr
    exact (more rfl).trans (congrArg (· + 1) same)

/-- One snapshot is made of every transition, and otherwise none. -/
theorem copies_dispatch {e : Event} {s s' : Session σ} {r : Response}
    (h : i.dispatch e s = (.ok r, s')) :
    s'.copies = s.copies + if r.transitioned then 1 else 0 := by
  unfold dispatch at h
  split at h
  · cases h
    rfl
  · split at h
    · cases h
      rfl
    · rename_i found
      have followed := copies_follow found s
      rw [Ensures] at followed
      generalize i.follow _ e s = result at h followed
      obtain ⟨o, s₁⟩ := result
      cases h
      exact followed r rfl

theorem account_dispatch (noStart : ¬ p.starts) (hw : i.surroundings.Watching p)
    (ha : i.surroundings.Acting p) (hj : i.surroundings.Judging p) {e : Event} {s s' : Session σ}
    {r : Response} (h : i.dispatch e s = (.ok r, s')) (stays : r.transitioned = false) :
    s'.account = s.account := by
  have dispatching := i.dispatching_dispatch e s
  have games := games_dispatch noStart hw ha hj e s
  have copies := copies_dispatch h
  rw [h] at dispatching games
  rw [stays] at copies
  rw [Session.account, Session.account, dispatching, games, copies]
  rfl

/-- When all is dispatched, or something has failed, it is still said that an event is being
dispatched; so it is for the send to take that back. -/
theorem dispatching_cycleLog {fuel : Nat} {e : Event} {s s' : Session σ} {log : List Response}
    {o : Except Fault Response} (h : i.cycleLog fuel e s = some (log, o, s')) :
    s'.dispatching = s.dispatching :=
  cycleLog_keeps (P := fun _ => True) (I := fun t => t.dispatching = s.dispatching)
    (fun {e} _ s hs => ⟨(i.dispatching_dispatch e s).trans hs, fun _ _ => trivial⟩)
    (fun _ _ _ => trivial) (fun hs _ => hs) trivial h rfl

end Interpreter
end TokenGate
