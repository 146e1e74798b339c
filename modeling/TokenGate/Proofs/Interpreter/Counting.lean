import TokenGate.Proofs.Interpreter.Shadow
import TokenGate.Proofs.Play.AtHand
import TokenGate.Proofs.Play.Calls

/-!
# Interpreters whose calls are counted

An interpreter does the same whether the calls of its surroundings are counted or not. As long as
the game is not started anew, it also does what it would do if these were left out. Once the game
is, what is left of the event at hand is done to the game that it was sent to, and the new one stays
as it is.
-/

namespace TokenGate

open Act

variable {σ α : Type} {a : Automaton} {n : Nat} {dispatched : List Event}

namespace Session

/-- A session with the count of calls forgotten, and the events that wait. -/
def apart (s : Session (σ × Calls)) : Session σ := { s.uncounted with queue := [] }

/-- The game has been started a given number of times, none of them since some events were
dispatched: they and those that wait are the ones that were sent. One is being dispatched now. -/
structure Steady (n : Nat) (dispatched : List Event) (s : Session (σ × Calls)) : Prop where
  running : s.Running
  busy : s.dispatching = true
  starts : s.calls.starts = n
  sent : s.calls.sent = dispatched ++ s.queue

/-- The game has been started anew, nothing has been done to it, and only what was sent since
waits. -/
structure Anew (a : Automaton) (n : Nat) (s : Session (σ × Calls)) : Prop where
  restarted : n < s.calls.starts
  busy : s.dispatching = true
  live : s.live = some (.fresh s.games a.tokenTypes a.definition.initial)
  sent : s.calls.sent = s.queue

/-- The game has been started anew since the event at hand was sent to another one. -/
structure Superseded (a : Automaton) (n : Nat) (s : Session (σ × Calls)) : Prop extends
    s.Anew a n where
  detached : s.detached.isSome = true

variable {s s' : Session (σ × Calls)}

theorem Steady.of_eq (h : s.Steady n dispatched) (hl : s'.live = s.live)
    (hd : s'.detached = s.detached) (hq : s'.queue = s.queue)
    (hb : s'.dispatching = s.dispatching) (hc : s'.calls = s.calls) :
    s'.Steady n dispatched where
  running := ⟨hl ▸ h.running.live, hd.trans h.running.detached⟩
  busy := hb.trans h.busy
  starts := hc ▸ h.starts
  sent := by rw [hc, hq, h.sent]

theorem Superseded.of_eq (h : s.Superseded a n) (hl : s'.live = s.live)
    (hd : s'.detached.isSome = true) (hq : s'.queue = s.queue)
    (hb : s'.dispatching = s.dispatching) (hg : s'.games = s.games) (hc : s'.calls = s.calls) :
    s'.Superseded a n where
  restarted := hc ▸ h.restarted
  busy := hb.trans h.busy
  live := hg ▸ hl.trans h.live
  sent := by rw [hc, hq, h.sent]
  detached := hd

/-- Whatever is done to the game of the event at hand, which is the running one, nothing is sent or
started by it. -/
theorem Steady.alter (h : s.Steady n dispatched) (f : Context → Context) (edits : Edits) :
    Steady n dispatched { s.modifyCurrent f with edits := edits } := by
  have started := h.running.live
  simp only [modifyCurrent, h.running.detached, modifyLive]
  exact ⟨⟨by simpa using started, rfl⟩, h.busy, h.starts, h.sent⟩

/-- The game of the event at hand is not the new one. -/
theorem Superseded.alter (h : s.Superseded a n) (f : Context → Context) (edits : Edits) :
    Superseded a n { s.modifyCurrent f with edits := edits } := by
  obtain ⟨old, hd⟩ := Option.isSome_iff_exists.1 h.detached
  simp only [modifyCurrent, hd]
  exact h.of_eq rfl rfl rfl rfl rfl rfl

end Session

namespace Stage

/-- A stage with the count of calls forgotten, and the events that wait. -/
def apart (g : Stage (σ × Calls)) : Stage σ := ⟨g.session.apart, g.hold⟩

/-- A play is about the running game, and this has not been started anew. -/
structure Steady (n : Nat) (dispatched : List Event) (g : Stage (σ × Calls)) : Prop where
  session : g.session.Steady n dispatched
  hold : g.hold = .current ∨ g.hold = .live

theorem Steady.present {g : Stage (σ × Calls)} (h : g.Steady n dispatched) : g.Present :=
  ⟨h.session.running, h.hold⟩

theorem game_apart (g : Stage (σ × Calls)) : g.apart.game = g.game := by
  obtain ⟨s, hold⟩ := g
  cases hold <;> rfl

theorem alter_apart (g : Stage (σ × Calls)) (change : Context × Edits → Context × Edits) :
    (g.alter change).apart = g.apart.alter change := by
  obtain ⟨⟨live, detached, queue, dispatching, watchers, logWatchers, edits, games, copies, memory⟩,
    hold⟩ := g
  cases hold with
  | current => cases detached <;> rfl
  | live => rfl
  | left c => rfl

/-- A play that changes the game of the event at hand, or none at all, does nothing to the new
one. -/
theorem superseded_alter {g : Stage (σ × Calls)} (h : g.session.Superseded a n)
    {change : Context × Edits → Context × Edits}
    (harmless : (∀ w, change w = w) ∨ g.hold = .current) :
    (g.alter change).session.Superseded a n := by
  obtain ⟨s, hold⟩ := g
  cases hold with
  | current => exact h.alter _ _
  | live =>
    have same := harmless.resolve_right nofun (game ⟨s, .live⟩, s.edits)
    have untouched : s.live.map (fun _ => game ⟨s, .live⟩) = s.live := by
      rw [game, h.live]
      rfl
    refine h.of_eq ?_ h.detached rfl rfl rfl rfl
    simp only [alter, modify, Session.modifyLive, same, untouched]
  | left c => exact h.of_eq rfl h.detached rfl rfl rfl rfl

/-- A play that is about the game of the event at hand stays so. -/
theorem hold_alter {g : Stage σ} (h : g.hold = .current)
    (change : Context × Edits → Context × Edits) : (g.alter change).hold = .current := by
  simp only [alter, modify, h]

end Stage

namespace Interpreter

variable {i : Interpreter σ}

theorem make_superseded {x : Play σ α} {g : Stage (σ × Calls)}
    (h : g.session.Superseded i.automaton n) (harmless : x.Within .onlooking ∨ g.hold = .current) :
    (i.counting.make x.counting g).2.session.Superseded i.automaton n := by
  induction x generalizing g with
  | done a => exact h
  | fail f => exact h
  | consult next ih => exact ih _ h (harmless.imp_left fun hx => hx _)
  | remember change next ih => exact ih (h.of_eq rfl h.detached rfl rfl rfl rfl) harmless
  | look next ih => exact ih _ _ h (harmless.imp_left fun hx => hx _ _)
  | lookLive next ih => exact ih _ _ h (harmless.imp_left fun hx => hx _ _)
  | send e next ih =>
    let noted : Stage (σ × Calls) :=
      { g with session.memory := (g.session.memory.1, g.session.memory.2.send e) }
    have waits : i.counting.make (Play.send e next).counting g = _ :=
      make_send_of_dispatching (k := fun r => (next r).counting) (g := noted) h.busy
    rw [waits]
    refine ih _ ?_ (harmless.imp_left fun hx => hx.2 _)
    exact ⟨⟨h.restarted, h.busy, h.live, congrArg (· ++ [e]) h.sent⟩, h.detached⟩
  | start next ih =>
    refine ih ⟨⟨Nat.lt_succ_of_lt h.restarted, h.busy, rfl, rfl⟩, ?_⟩
      (harmless.imp And.right fun hold => ?_)
    · obtain ⟨old, hd⟩ := Option.isSome_iff_exists.1 h.detached
      show (g.session.detached <|> g.session.live).isSome = true
      rw [hd]
      rfl
    · simp only [Stage.holdAfterRestart, hold]
  | alter change next ih =>
    exact ih (Stage.superseded_alter h (harmless.imp_left And.left))
      (harmless.imp And.right fun hold => Stage.hold_alter hold change)
  | subscribe channel name next ih =>
    refine ih (h.of_eq ?_ ?_ ?_ ?_ ?_ ?_) harmless <;> cases channel <;>
      first | rfl | exact h.detached
  | unsubscribe channel name next ih =>
    refine ih (h.of_eq ?_ ?_ ?_ ?_ ?_ ?_) harmless <;> cases channel <;>
      first | rfl | exact h.detached

/-- A play is made as it would be without its calls, unless it starts the game anew. -/
theorem make_alone (x : Play σ α) {g : Stage (σ × Calls)} (hg : g.Steady n dispatched) :
    (i.counting.make x.counting g).2.session.Superseded i.automaton n ∨
      Mirrors Stage.apart (Stage.Steady n dispatched) g (i.counting.make x.counting)
        (i.alone.make x.alone) := by
  induction x generalizing g with
  | done a => exact .inr ⟨rfl, hg⟩
  | fail f => exact .inr ⟨rfl, hg⟩
  | consult next ih => exact ih _ hg
  | remember change next ih =>
    exact ih (g := { g with session.memory := (change g.session.memory.1, g.session.memory.2) })
      ⟨hg.session.of_eq rfl rfl rfl rfl rfl, hg.hold⟩
  | look next ih =>
    have told := ih g.game g.session.edits hg
    simp only [Mirrors, make, Play.counting, Play.alone, g.game_apart] at told ⊢
    exact told
  | lookLive next ih => exact ih (g.session.live.getD default) g.session.edits hg
  | send e next ih =>
    let g' : Stage (σ × Calls) :=
      { g with
        session.queue := g.session.queue ++ [e]
        session.memory := (g.session.memory.1, g.session.memory.2.send e) }
    have hg' : g'.Steady n dispatched := by
      refine ⟨⟨⟨hg.session.running.live, hg.session.running.detached⟩, hg.session.busy,
        hg.session.starts, ?_⟩, hg.hold⟩
      show g.session.calls.sent ++ [e] = dispatched ++ (g.session.queue ++ [e])
      rw [hg.session.sent, List.append_assoc]
    let noted : Stage (σ × Calls) :=
      { g with session.memory := (g.session.memory.1, g.session.memory.2.send e) }
    have waits : i.counting.make (Play.send e next).counting g =
        i.counting.make (next (.deferral e g.session.stateText)).counting g' :=
      make_send_of_dispatching (k := fun r => (next r).counting) (g := noted) hg.session.busy
    have told := ih (.deferral e g.session.stateText) hg'
    have text := hg.present.stateText_eq
    rw [← g.game_apart] at text
    simp only [Mirrors, waits]
    simp only [Mirrors, make, Play.alone, ← text] at told ⊢
    exact told
  | start next ih =>
    let counted : Session (σ × Calls) :=
      { g.session with memory := (g.session.memory.1, g.session.memory.2.start) }
    have running := hg.session.running
    have superseded : (i.counting.restart counted).Superseded i.automaton n := by
      refine ⟨⟨hg.session.starts ▸ Nat.lt_succ_self _, hg.session.busy, rfl, rfl⟩, ?_⟩
      show (g.session.detached <|> g.session.live).isSome = true
      rw [running.detached, running.current_eq]
      rfl
    have hold : g.holdAfterRestart = .current := by
      unfold Stage.holdAfterRestart
      rcases hg.hold with hold | hold <;> rw [hold, running.detached]
    exact .inl (make_superseded (g := ⟨_, g.holdAfterRestart⟩) superseded (.inr hold))
  | alter change next ih =>
    have altered := g.alter_apart change
    have steady : (g.alter change).Steady n dispatched := by
      have changed := hg.session.alter (fun _ => (change (g.game, g.session.edits)).1)
        (change (g.game, g.session.edits)).2
      simp only [Stage.alter, hg.present.modify]
      exact ⟨changed, hg.hold⟩
    have told := ih steady
    simp only [Mirrors, altered] at told
    exact told
  | subscribe channel name next ih =>
    have steady : Stage.Steady n dispatched { g with session := g.session.subscribe channel name } := by
      refine ⟨hg.session.of_eq ?_ ?_ ?_ ?_ ?_, hg.hold⟩ <;> cases channel <;> rfl
    cases channel <;> exact ih steady
  | unsubscribe channel name next ih =>
    have steady :
        Stage.Steady n dispatched { g with session := g.session.unsubscribe channel name } := by
      refine ⟨hg.session.of_eq ?_ ?_ ?_ ?_ ?_, hg.hold⟩ <;> cases channel <;> rfl
    cases channel <;> exact ih steady

variable (i)

theorem perform_alone {x : Play σ α} {hold : Hold} (hh : hold = .current ∨ hold = .live)
    (harmless : x.Within .onlooking ∨ hold = .current) :
    Shadows (Seen Session.apart (Session.Steady n dispatched)) (Session.Superseded i.automaton n)
      (i.counting.perform hold x.counting) (i.alone.perform hold x.alone) where
  keeps := by
    rintro s t ⟨rfl, hs⟩
    refine (i.make_alone x (g := ⟨s, hold⟩) ⟨hs, hh⟩).imp_right fun ⟨heq, hg⟩ => ?_
    have told := congrArg Prod.fst heq
    have after := congrArg (fun result => result.2.session) heq
    exact ⟨told, after, hg.session⟩
  stays hs := make_superseded (g := ⟨_, hold⟩) hs harmless

theorem perform_counting (hold : Hold) (x : Play σ α) :
    Shadows (Seen Session.uncounted fun _ => True) (fun _ => False)
      (i.counting.perform hold x.counting) (i.perform hold x) := by
  rw [Play.counting_eq_beside]
  exact perform_beside i.beside_counting Calls.notes hold x

/-- Until the game is started anew, the interpreter whose calls are counted is shadowed by the one
without calls. -/
theorem counting_shadow (hw : i.surroundings.Watching .onlooking) :
    Shadow i.counting i.alone (Seen Session.apart (Session.Steady n dispatched))
      (Session.Superseded i.automaton n) where
  automaton := rfl
  config := rfl
  live hR := hR.1 ▸ rfl
  detached hR := hR.1 ▸ rfl
  edits hR := hR.1 ▸ rfl
  settle := by
    rintro s t ⟨rfl, hs⟩
    exact ⟨rfl, hs.of_eq rfl hs.running.detached.symm rfl rfl rfl⟩
  report logger level message := by
    rintro s t ⟨rfl, hs⟩
    exact ⟨rfl, hs.of_eq rfl rfl rfl rfl rfl⟩
  reportAstray _ _ _ _ hs := hs.of_eq rfl hs.detached rfl rfl rfl rfl
  copies hR := hR.1 ▸ rfl
  modifyCurrent f := by
    have kept (s : Session (σ × Calls)) :
        { s.modifyCurrent f with edits := s.edits } = s.modifyCurrent f := by
      rw [← s.edits_modifyCurrent f]
    refine shadows_change ?_ fun {s} hs => kept s ▸ hs.alter f s.edits
    rintro s t ⟨rfl, hs⟩
    have attached : s.apart.detached = none := hs.running.detached
    refine ⟨?_, kept s ▸ hs.alter f s.edits⟩
    simp only [Session.modifyCurrent, hs.running.detached, attached]
    rfl
  edit edit := by
    refine shadows_change ?_ fun hs => hs.of_eq rfl hs.detached rfl rfl rfl rfl
    rintro s t ⟨rfl, hs⟩
    exact ⟨rfl, hs.of_eq rfl rfl rfl rfl rfl⟩
  copied := by
    refine shadows_change ?_ fun hs => hs.of_eq rfl hs.detached rfl rfl rfl rfl
    rintro s t ⟨rfl, hs⟩
    exact ⟨rfl, hs.of_eq rfl rfl rfl rfl rfl⟩
  effect name := by
    simp only [counting, alone, Surroundings.tell, Table.get?_map]
    cases i.surroundings.effects.get? name with
    | none => exact .none
    | some handler =>
      cases handler with
      | setFlag => exact .setFlag
      | removePiece => exact .removePiece
      | custom play => exact .custom fun payload => i.perform_alone (.inl rfl) (.inr rfl)
  judge _ _ e := i.perform_alone (.inl rfl) (.inr rfl)
  notify n := by
    refine shadows_notify (i.perform_alone (.inr rfl) (.inl (hw.onTransition n)))
      (fun name => i.perform_alone (.inr rfl) (.inl (hw.transitionWatcher name n)))
      fun hR => hR.1 ▸ rfl
  notifyLog l := by
    refine shadows_notifyLog (i.perform_alone (.inr rfl) (.inl (hw.onRuleLog l)))
      (fun name => i.perform_alone (.inr rfl) (.inl (hw.logWatcher name l)))
      fun hR => hR.1 ▸ rfl

/-- Counting its calls changes nothing about what an interpreter does. -/
theorem counting_follows : Shadow i.counting i (Seen Session.uncounted fun _ => True)
    fun _ => False := by
  refine i.beside_counting.follows Calls.notes ?_ ?_ (fun n => ?_) fun l => ?_
  · exact congrArg (Table.map · _) (congrArg EffectHandler.tell (funext Play.counting_eq_beside))
  · exact fun key e => Play.counting_eq_beside _
  · exact shadows_notify (i.perform_counting .live _) (fun name => i.perform_counting .live _)
      fun hR => hR.1 ▸ rfl
  · exact shadows_notifyLog (i.perform_counting .live _) (fun name => i.perform_counting .live _)
      fun hR => hR.1 ▸ rfl

end Interpreter
end TokenGate
