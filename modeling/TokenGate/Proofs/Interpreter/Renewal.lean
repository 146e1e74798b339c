import TokenGate.Proofs.Data
import TokenGate.Proofs.Interpreter.Counting
import TokenGate.Proofs.Interpreter.Dispatching
import TokenGate.Proofs.Play.Attending

/-!
# The data of a new game

A game that is started anew has a number that no game of the session had, and nothing has been done
to a game with that number. What is left of the event at hand edits the game that it was sent to. So
as long as custom effects and predicates keep to the game that they are handed, the new game has the
data that it began with when the event is done, whatever has been sent and shared before.
-/

namespace TokenGate

open Act

variable {σ α : Type} {n : Nat}

namespace Permit

/-- A game may be changed that is handed over, but it stays the one it is, and no edit is made to a
game that was begun after it. All else is permitted. -/
def handed : Permit where
  fails _ := True
  sends := True
  starts := True
  changes v w := w.1.number = v.1.number ∧ ∃ new, w.2 = v.2 ++ new ∧
    ∀ e ∈ new, ∀ g, e.game? = some g → g ≤ v.1.number
  refl v := ⟨rfl, [], (List.append_nil _).symm, nofun⟩
  trans {u v w} h₁ h₂ := by
    obtain ⟨same₁, new₁, edits₁, earlier₁⟩ := h₁
    obtain ⟨same₂, new₂, edits₂, earlier₂⟩ := h₂
    refine ⟨same₂.trans same₁, new₁ ++ new₂, by rw [edits₂, edits₁, List.append_assoc], ?_⟩
    intro e he g hg
    rcases List.mem_append.1 he with he | he
    · exact earlier₁ e he g hg
    · exact same₁ ▸ earlier₂ e he g hg

end Permit

theorem le_foldl_max (l : List Nat) (k : Nat) : k ≤ l.foldl max k ∧ ∀ x ∈ l, x ≤ l.foldl max k := by
  induction l generalizing k with
  | nil => exact ⟨Nat.le_refl k, nofun⟩
  | cons x rest ih =>
    obtain ⟨start, others⟩ := ih (max k x)
    refine ⟨Nat.le_trans (Nat.le_max_left k x) start, fun y hy => ?_⟩
    rcases List.mem_cons.1 hy with rfl | hy
    · exact Nat.le_trans (Nat.le_max_right k y) start
    · exact others y hy

namespace Session

variable {s : Session σ}

theorem number_lt_newNumber {c : Context} (h : s.live = some c ∨ s.detached = some c) :
    c.number < s.newNumber := by
  refine Nat.lt_succ_of_le ((le_foldl_max _ s.games).2 _ (List.mem_append_left _ ?_))
  refine List.mem_map_of_mem (List.mem_append.2 ?_)
  exact h.imp (fun h => by simp [h]) fun h => by simp [h]

theorem game_lt_newNumber {e : Edit} (he : e ∈ s.edits) {g : Nat} (hg : e.game? = some g) :
    g < s.newNumber := by
  refine Nat.lt_succ_of_le ((le_foldl_max _ s.games).2 _ (List.mem_append_right _ ?_))
  exact List.mem_filterMap.2 ⟨e, he, hg⟩

/-- Nothing has been done to the data of the game that was started last. -/
def Untouched (s : Session σ) : Prop := ∀ e ∈ s.edits, e.game? ≠ some s.games

/-- If the game has been started anew while an event is handled, that event is about an earlier
game, and nothing has been done to the data of the new one. -/
structure Renewed (n : Nat) (s : Session (σ × Calls)) : Prop where
  started : s.live.isSome = true
  detached : n < s.calls.starts → s.detached.isSome = true
  earlier : n < s.calls.starts → s.current.number < s.games
  untouched : n < s.calls.starts → s.Untouched

/-- A game is running that has not been started anew. -/
structure Lasting (n : Nat) (s : Session (σ × Calls)) : Prop where
  started : s.live.isSome = true
  starts : s.calls.starts = n

theorem Lasting.modifyCurrent {s : Session (σ × Calls)} (h : s.Lasting n) (f : Context → Context) :
    (s.modifyCurrent f).Lasting n where
  started := started_modifyCurrent h.started f
  starts := by rw [calls, memory_modifyCurrent, ← h.starts, calls]

theorem Lasting.renewed {s : Session (σ × Calls)} (h : s.Lasting n) : s.Renewed n where
  started := h.started
  detached later := absurd h.starts (Nat.ne_of_gt later)
  earlier later := absurd h.starts (Nat.ne_of_gt later)
  untouched later := absurd h.starts (Nat.ne_of_gt later)

namespace Renewed

variable {s s' : Session (σ × Calls)}

theorem of_eq (h : s.Renewed n) (hl : s'.live = s.live) (hd : s'.detached = s.detached)
    (he : s'.edits = s.edits) (hg : s'.games = s.games) (hc : s'.calls = s.calls) :
    s'.Renewed n where
  started := hl ▸ h.started
  detached later := hd ▸ h.detached (hc ▸ later)
  earlier later := by
    rw [current, hl, hd, hg]
    exact h.earlier (hc ▸ later)
  untouched later := by
    rw [Untouched, he, hg]
    exact h.untouched (hc ▸ later)

/-- Whatever is done to the game of the event at hand, the edits that come with it are not made to a
later one. -/
theorem alter (h : s.Renewed n) {f : Context → Context} (new : Edits)
    (same : (f s.current).number = s.current.number)
    (older : ∀ e ∈ new, ∀ g, e.game? = some g → g ≤ s.current.number) :
    Renewed n { s.modifyCurrent f with edits := s.edits ++ new } := by
  have calls : Session.calls { s.modifyCurrent f with edits := s.edits ++ new } = s.calls :=
    congrArg Prod.snd (s.memory_modifyCurrent f)
  have games : Session.games { s.modifyCurrent f with edits := s.edits ++ new } = s.games :=
    s.games_modifyCurrent f
  have current : Session.current { s.modifyCurrent f with edits := s.edits ++ new } =
      f s.current := current_modifyCurrent h.started f
  refine ⟨started_modifyCurrent h.started f, fun later => ?_, fun later => ?_, fun later => ?_⟩
  · obtain ⟨c, hc⟩ := Option.isSome_iff_exists.1 (h.detached (calls ▸ later))
    simp only [modifyCurrent, hc, Option.isSome_some]
  · rw [current, same, games]
    exact h.earlier (calls ▸ later)
  · intro e he
    rw [games]
    rcases List.mem_append.1 he with he | he
    · exact h.untouched (calls ▸ later) e he
    · intro now
      exact absurd (older e he _ now) (Nat.not_le_of_lt (h.earlier (calls ▸ later)))

theorem modifyCurrent (h : s.Renewed n) {f : Context → Context}
    (same : (f s.current).number = s.current.number) : (s.modifyCurrent f).Renewed n := by
  have altered := h.alter [] same nofun
  rwa [List.append_nil, ← s.edits_modifyCurrent f] at altered

/-- A new start makes the game that the event at hand is about an earlier one. -/
theorem restart (h : s.Renewed n) (a : Automaton) (calls : Calls) :
    Renewed n { s.restart a with memory := (s.memory.1, calls) } := by
  obtain ⟨c, hc⟩ := Option.isSome_iff_exists.1 h.started
  refine ⟨rfl, fun _ => ?_, fun _ => ?_, fun _ e he now => ?_⟩
  · show (s.detached <|> s.live).isSome = true
    cases hd : s.detached <;> simp [hc]
  · show (((s.detached <|> s.live) <|> some _).getD default).number < s.newNumber
    cases hd : s.detached with
    | none =>
      rw [hc]
      exact s.number_lt_newNumber (.inl hc)
    | some old => exact s.number_lt_newNumber (.inr hd)
  · exact Nat.lt_irrefl _ (s.game_lt_newNumber he now)

end Renewed

end Session

/-- A play that keeps to the game that it is handed, or changes none at all, does nothing to a new
one. -/
theorem Stage.renewed_alter {g : Stage (σ × Calls)} (h : g.session.Renewed n)
    {change : Context × Edits → Context × Edits}
    (harmless : (∀ w, change w = w) ∨
      (∀ w, Permit.handed.changes w (change w)) ∧ g.hold = .current) :
    (g.alter change).session.Renewed n := by
  rcases harmless with same | ⟨handed, hold⟩
  · rw [g.alter_self same]
    exact h
  · obtain ⟨same, new, edits, older⟩ := handed (g.game, g.session.edits)
    obtain ⟨s, _⟩ := g
    cases hold
    simp only [alter, modify, edits]
    exact h.alter new same older

namespace Interpreter

variable {i : Interpreter σ}

theorem make_renewed {x : Play σ α} {g : Stage (σ × Calls)} (h : g.session.Renewed n)
    (harmless : x.Within .onlooking ∨ x.Within .handed ∧ g.hold = .current) :
    (i.counting.make x.counting g).2.session.Renewed n := by
  induction x generalizing g with
  | done a => exact h
  | fail f => exact h
  | consult next ih => exact ih _ h (harmless.imp (· _) (And.imp_left (· _)))
  | remember change next ih => exact ih (h.of_eq rfl rfl rfl rfl rfl) harmless
  | look next ih => exact ih _ _ h (harmless.imp (· _ _) (And.imp_left (· _ _)))
  | lookLive next ih => exact ih _ _ h (harmless.imp (· _ _) (And.imp_left (· _ _)))
  | send e next ih =>
    let noted : Stage (σ × Calls) :=
      { g with session.memory := (g.session.memory.1, g.session.memory.2.send e) }
    have within (r : Response) :
        (next r).Within .onlooking ∨ (next r).Within .handed ∧ g.hold = .current :=
      harmless.imp (fun hx => hx.2 r) (And.imp_left fun hx => hx.2 r)
    exact make_send_cases (i := i.counting) (k := fun r => (next r).counting) (g := noted)
      (P := fun made => made.2.session.Renewed n)
      (ih _ ⟨h.started, h.detached, h.earlier, h.untouched⟩ (within _))
      (ih _ ⟨h.started, h.detached, h.earlier, h.untouched⟩ (within _))
  | start next ih =>
    refine ih ?_ (harmless.imp And.right fun hx => ⟨hx.1.2, ?_⟩)
    · exact (h.restart i.automaton g.session.memory.2.start).of_eq rfl rfl rfl rfl rfl
    · simp only [Stage.holdAfterRestart, hx.2]
  | alter change next ih =>
    refine ih (Stage.renewed_alter h ?_) (harmless.imp And.right fun hx =>
      ⟨hx.1.2, Stage.hold_alter hx.2 change⟩)
    exact harmless.imp (fun hx => hx.1) (And.imp_left fun hx => hx.1)
  | subscribe channel name next ih =>
    refine ih (h.of_eq ?_ ?_ ?_ ?_ ?_) harmless <;> cases channel <;> rfl
  | unsubscribe channel name next ih =>
    refine ih (h.of_eq ?_ ?_ ?_ ?_ ?_) harmless <;> cases channel <;> rfl

theorem perform_renewed {x : Play σ α} {hold : Hold}
    (harmless : x.Within .onlooking ∨ x.Within .handed ∧ hold = .current) :
    (i.counting.perform hold x.counting).Keeps (Session.Renewed n) fun _ => True :=
  fun _ hs => ⟨make_renewed (g := ⟨_, hold⟩) hs harmless, fun _ _ => trivial⟩

/-- A custom effect is one of the interpreter, its calls counted. -/
theorem custom_of_counting {name : String} {play : Data → Play (σ × Calls) Unit}
    (h : i.counting.surroundings.effects.get? name = some (.custom play)) :
    ∃ x, i.surroundings.effects.get? name = some (.custom x) ∧
      play = fun payload => (x payload).counting := by
  simp only [counting, Surroundings.tell, Table.get?_map, Option.map_eq_some_iff] at h
  obtain ⟨handler, heffect, htold⟩ := h
  cases handler with
  | setFlag => cases htold
  | removePiece => cases htold
  | custom x =>
    cases htold
    exact ⟨x, heffect, rfl⟩

section Dispatch

variable (ha : i.surroundings.Acting .handed) (hj : i.surroundings.Judging .handed)

include ha hj

/-- Effects are applied while the game of the event at hand is still the running one; whatever
starts it anew comes with them or after them. -/
theorem retains_renewed (e : Event) :
    i.counting.Retains e (Session.Lasting n) (Session.Renewed n) fun _ => True where
  before :=
    { report := fun _ _ _ _ hs => ⟨hs.started, hs.starts⟩
      grant := fun _ hs => hs.modifyCurrent _
      charge := fun _ hs _ => hs.modifyCurrent _
      noEntry := fun _ _ _ => trivial
      applied := fun _ _ hs => hs.modifyCurrent _ }
  after :=
    { report := fun _ _ _ _ hs => hs.of_eq rfl rfl rfl rfl rfl
      grant := fun _ hs => hs.modifyCurrent rfl
      charge := fun _ hs _ => hs.modifyCurrent rfl
      noEntry := fun _ _ _ => trivial
      applied := fun _ _ hs => hs.modifyCurrent rfl }
  begun _ hs := hs.renewed
  effect _ := by
    refine applyEffect_leads (G := fun _ => True) (fun _ hs => hs.renewed) ?_ ?_ fun hplay => ?_
    · intro s edit _ hs _
      exact Session.Lasting.renewed ⟨hs.started, hs.starts⟩
    · intro s edit _ hs _
      exact Session.Lasting.renewed ⟨hs.started, hs.starts⟩
    · obtain ⟨x, heffect, rfl⟩ := custom_of_counting hplay
      exact (perform_renewed (.inr ⟨ha _ x heffect _, rfl⟩)).of_imp fun _ hs => hs.renewed
  judge {_ key} _ _ := (perform_renewed (.inr ⟨hj key e, rfl⟩)).of_imp fun _ hs => hs.renewed

/-- If the game is started anew during a dispatch, nothing has been done to the data of the new game
when that is over. -/
theorem untouched_dispatch (hw : i.surroundings.Watching .onlooking) {e : Event}
    {s : Session (σ × Calls)}
    (later : s.calls.starts < (i.counting.dispatch e s).2.calls.starts) :
    (i.counting.dispatch e s).2.Untouched := by
  have started : s.live.isSome = true := by
    cases hl : s.live with
    | some c => rfl
    | none =>
      simp only [dispatch, hl] at later
      exact absurd later (Nat.lt_irrefl _)
  have leads := (retains_renewed (n := s.calls.starts) ha hj e).dispatch_leads
    (K := fun s' => s.calls.starts < s'.calls.starts → s'.Untouched)
    (fun l => notifyLog_keeps_of (perform_renewed (.inl (hw.onRuleLog l))) fun name =>
      perform_renewed (.inl (hw.logWatcher name l)))
    (fun t => notify_keeps_of (perform_renewed (.inl (hw.onTransition t))) fun name =>
      perform_renewed (.inl (hw.transitionWatcher name t)))
    (fun _ _ _ _ hs => hs.modifyCurrent rfl) (fun hs => hs.of_eq rfl rfl rfl rfl rfl)
    (fun hs => hs.untouched) fun hs => hs.untouched
  exact (leads s ⟨started, rfl⟩).1 later

end Dispatch

end Interpreter

/-- A game that has just been started has the data of its definition, if nothing has been done to
that. -/
theorem Context.fields_fresh {s : Edits} {number : Nat} (h : ∀ e ∈ s, e.game? ≠ some number)
    (tokens : List String) (game : Fields) : (fresh number tokens game).fields s = game := by
  have nothing : s.stored number = [] := by
    refine Edits.stored_eq_nil fun e he same => h e he ?_
    cases e with
    | strike => cases same
    | put =>
      cases same
      rfl
  have unstruck (k p : Nat) : s.view.struck (.own number k) p = false := by
    rw [Edits.struck_view, Edits.struck, List.any_eq_false]
    intro e he struck
    cases e with
    | strike mark position =>
      simp only [Bool.and_eq_true, decide_eq_true_eq] at struck
      exact h _ he (struck.1 ▸ rfl)
    | put => cases struck
  rw [fields, entries, Edits.entries, fresh, nothing]
  exact Data.readFields_mint unstruck 0 game

end TokenGate
