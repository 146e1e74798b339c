import TokenGate.Proofs.Interpreter.Shadow
import TokenGate.Proofs.Play.Permit
import TokenGate.Proofs.Play.Relay

/-!
# Notes beside what is remembered

A play can be told again in a session that remembers something besides, with notes taken there when
it sends an event or starts the game anew. That changes nothing about what it does, and an
interpreter whose surroundings are told again like that does the same as before.
-/

namespace TokenGate

open Act

variable {σ τ α : Type}

/-- A session with something else remembered. -/
def Session.mapMemory (f : σ → τ) (s : Session σ) : Session τ where
  live := s.live
  detached := s.detached
  queue := s.queue
  dispatching := s.dispatching
  transitionWatchers := s.transitionWatchers
  logWatchers := s.logWatchers
  edits := s.edits
  games := s.games
  copies := s.copies
  memory := f s.memory

theorem Session.modifyCurrent_mapMemory (s : Session σ) (f : σ → τ) (change : Context → Context) :
    (s.modifyCurrent change).mapMemory f = (s.mapMemory f).modifyCurrent change := by
  obtain ⟨_, detached, _, _, _, _, _, _, _, _⟩ := s
  cases detached <;> rfl

/-- How notes are taken when an event is sent and when the game is started anew. -/
structure Notes (τ : Type) where
  send : Event → τ → τ
  start : τ → τ

/-- No notes are taken. -/
def Notes.none : Notes τ := ⟨fun _ t => t, id⟩

/-- The play with notes taken beside what it remembers. -/
def Play.beside (k : Notes τ) : Play σ α → Play (σ × τ) α
  | done a => done a
  | fail f => fail f
  | consult next => consult fun m => beside k (next m.1)
  | remember change next => remember (fun m => (change m.1, m.2)) (beside k next)
  | look next => look fun c s => beside k (next c s)
  | lookLive next => lookLive fun c s => beside k (next c s)
  | send e next => remember (fun m => (m.1, k.send e m.2)) (send e fun r => beside k (next r))
  | start next => remember (fun m => (m.1, k.start m.2)) (start (beside k next))
  | alter change next => alter change (beside k next)
  | subscribe c n next => subscribe c n (beside k next)
  | unsubscribe c n next => unsubscribe c n (beside k next)

/-- With notes taken, a play keeps to the same permit. -/
theorem Play.within_beside {p : Permit} (k : Notes τ) {x : Play σ α} (h : x.Within p) :
    (x.beside k).Within p := by
  induction x with
  | done a => trivial
  | fail f => exact h
  | consult next ih => exact fun m => ih _ (h _)
  | remember change next ih => exact ih h
  | look next ih => exact fun c s => ih c s (h c s)
  | lookLive next ih => exact fun c s => ih c s (h c s)
  | send e next ih => exact ⟨h.1, fun r => ih r (h.2 r)⟩
  | start next ih => exact ⟨h.1, ih h.2⟩
  | alter change next ih => exact ⟨h.1, ih h.2⟩
  | subscribe c n next ih => exact ih h
  | unsubscribe c n next ih => exact ih h

namespace Stage

/-- A stage with something else remembered. -/
def mapMemory (f : σ → τ) (g : Stage σ) : Stage τ := ⟨g.session.mapMemory f, g.hold⟩

variable (f : σ → τ) (g : Stage σ)

theorem game_mapMemory : (g.mapMemory f).game = g.game := by
  obtain ⟨s, hold⟩ := g
  cases hold <;> rfl

theorem alter_mapMemory (change : Context × Edits → Context × Edits) :
    (g.alter change).mapMemory f = (g.mapMemory f).alter change := by
  obtain ⟨⟨live, detached, queue, dispatching, watchers, logWatchers, edits, games, copies, memory⟩,
    hold⟩ := g
  cases hold with
  | current => cases detached <;> rfl
  | live => rfl
  | left c => rfl

theorem holdAfterRestart_mapMemory :
    (g.mapMemory f).holdAfterRestart = g.holdAfterRestart := by
  obtain ⟨⟨live, detached, queue, dispatching, watchers, logWatchers, edits, games, copies, memory⟩,
    hold⟩ := g
  cases hold <;> cases detached <;> rfl

end Stage

namespace Interpreter

/-- An interpreter has the automaton and the behaviour of another one, remembers more, and reports
the same. -/
structure Beside (i : Interpreter σ) (j : Interpreter (σ × τ)) : Prop where
  automaton : j.automaton = i.automaton
  config : j.config = i.config
  log : ∀ r m, (j.surroundings.log r m).1 = i.surroundings.log r m.1

variable {i : Interpreter σ} {j : Interpreter (σ × τ)}

theorem Beside.report (h : Beside i j) (logger : String) (level : Level) (message : String)
    (s : Session (σ × τ)) :
    (j.report logger level message s).mapMemory Prod.fst =
      i.report logger level message (s.mapMemory Prod.fst) := by
  simp only [Interpreter.report, Session.mapMemory, h.log]

theorem Beside.restart (h : Beside i j) (s : Session (σ × τ)) :
    (j.restart s).mapMemory Prod.fst = i.restart (s.mapMemory Prod.fst) := by
  simp only [Interpreter.restart, h.report, h.automaton]
  rfl

/-- Taking notes changes nothing about a play. -/
theorem make_beside (h : Beside i j) (k : Notes τ) (x : Play σ α) (g : Stage (σ × τ)) :
    i.make x (g.mapMemory Prod.fst) =
      ((j.make (x.beside k) g).1, (j.make (x.beside k) g).2.mapMemory Prod.fst) := by
  induction x generalizing g with
  | done a => rfl
  | fail f => rfl
  | consult next ih => exact ih _ g
  | remember change next ih =>
    exact ih { g with session.memory := (change g.session.memory.1, g.session.memory.2) }
  | look next ih =>
    have told := ih g.game g.session.edits g
    simp only [make, Play.beside, g.game_mapMemory] at told ⊢
    exact told
  | lookLive next ih => exact ih _ _ g
  | send e next ih =>
    let noted : Stage (σ × τ) :=
      { g with session.memory := (g.session.memory.1, k.send e g.session.memory.2) }
    have told : j.make ((Play.send e next).beside k) g =
        j.make (.send e fun r => (next r).beside k) noted := rfl
    cases waits : g.session.dispatching with
    | true =>
      rw [told, make_send_of_dispatching (g := noted) waits,
        make_send_of_dispatching (g := g.mapMemory Prod.fst) waits]
      exact ih _ { noted with session.queue := g.session.queue ++ [e] }
    | false =>
      rw [told, make_send_of_idle (g := noted) waits,
        make_send_of_idle (g := g.mapMemory Prod.fst) waits]
      exact ih _ noted
  | start next ih =>
    let noted : Session (σ × τ) :=
      { g.session with memory := (g.session.memory.1, k.start g.session.memory.2) }
    have told := ih ⟨j.restart noted, g.holdAfterRestart⟩
    rw [Stage.mapMemory, h.restart] at told
    simp only [make, Play.beside, g.holdAfterRestart_mapMemory]
    exact told
  | alter change next ih =>
    have told := ih (g.alter change)
    rw [g.alter_mapMemory] at told
    exact told
  | subscribe channel name next ih =>
    have told := ih { g with session := g.session.subscribe channel name }
    cases channel <;> exact told
  | unsubscribe channel name next ih =>
    have told := ih { g with session := g.session.unsubscribe channel name }
    cases channel <;> exact told

theorem perform_beside (h : Beside i j) (k : Notes τ) (hold : Hold) (x : Play σ α) :
    Shadows (Seen (Session.mapMemory Prod.fst) fun _ => True) (fun _ => False)
      (j.perform hold (x.beside k)) (i.perform hold x) := by
  refine shadows_of_mirrors fun {s} _ => ⟨?_, trivial⟩
  have made := make_beside h k x ⟨s, hold⟩
  simp only [Stage.mapMemory] at made
  simp only [perform, Act.on, made]

/-- An interpreter follows one that takes notes beside, if that is so for those who watch. -/
theorem Beside.follows (h : Beside i j) (k : Notes τ)
    (effects : j.surroundings.effects = i.surroundings.effects.map (.tell (Play.beside k)))
    (judge : ∀ key e,
      j.surroundings.predicate key e = (i.surroundings.predicate key e).beside k)
    (notify : ∀ n, Shadows (Seen (Session.mapMemory Prod.fst) fun _ => True) (fun _ => False)
      (j.notify n) (i.notify n))
    (notifyLog : ∀ l, Shadows (Seen (Session.mapMemory Prod.fst) fun _ => True) (fun _ => False)
      (j.notifyLog l) (i.notifyLog l)) :
    Shadow j i (Seen (Session.mapMemory Prod.fst) fun _ => True) fun _ => False where
  automaton := h.automaton.symm
  config := h.config.symm
  live hR := hR.1 ▸ rfl
  detached hR := hR.1 ▸ rfl
  edits hR := hR.1 ▸ rfl
  copies hR := hR.1 ▸ rfl
  settle := by
    rintro s t ⟨rfl, -⟩
    exact ⟨rfl, trivial⟩
  report logger level message := by
    rintro s t ⟨rfl, -⟩
    exact ⟨(h.report _ _ _ s).symm, trivial⟩
  reportAstray _ _ _ _ := False.elim
  modifyCurrent f := by
    refine shadows_change ?_ False.elim
    rintro s t ⟨rfl, -⟩
    exact ⟨(s.modifyCurrent_mapMemory Prod.fst f).symm, trivial⟩
  edit edit := by
    refine shadows_change ?_ False.elim
    rintro s t ⟨rfl, -⟩
    exact ⟨rfl, trivial⟩
  copied := by
    refine shadows_change ?_ False.elim
    rintro s t ⟨rfl, -⟩
    exact ⟨rfl, trivial⟩
  effect name := by
    simp only [effects, Table.get?_map]
    cases i.surroundings.effects.get? name with
    | none => exact .none
    | some handler =>
      cases handler with
      | setFlag => exact .setFlag
      | removePiece => exact .removePiece
      | custom play => exact .custom fun payload => perform_beside h k .current (play payload)
  judge _ _ e := by
    rw [judge]
    exact perform_beside h k .current _
  notify := notify
  notifyLog := notifyLog

end Interpreter
end TokenGate
