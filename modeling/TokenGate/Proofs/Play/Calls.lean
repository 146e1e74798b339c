import TokenGate.Proofs.Play.Beside

/-!
# Counting nested calls

Whoever is called while an event is handled may call back: start the game anew, or send events. The
calls can be counted, which changes nothing, and they can be left out; a play that starts nothing
then learns what it would have learned from them.
-/

namespace TokenGate

variable {σ α : Type}

/-- The calls made while events are handled. -/
structure Calls where
  /-- How often the game was started anew. -/
  starts : Nat
  /-- The events that were sent, those only that were sent since the last start. -/
  sent : List Event

namespace Calls

/-- No calls have been made. -/
def none : Calls := ⟨0, []⟩

/-- The game is started anew. -/
def start (c : Calls) : Calls := ⟨c.starts + 1, []⟩

/-- An event is sent. -/
def send (c : Calls) (e : Event) : Calls := { c with sent := c.sent ++ [e] }

end Calls

namespace Play

/-- The play with its calls counted. -/
def counting : Play σ α → Play (σ × Calls) α
  | done a => done a
  | fail f => fail f
  | consult next => consult fun m => counting (next m.1)
  | remember change next => remember (fun m => (change m.1, m.2)) (counting next)
  | look next => look fun c s => counting (next c s)
  | lookLive next => lookLive fun c s => counting (next c s)
  | send e next => remember (fun m => (m.1, m.2.send e)) (send e fun r => counting (next r))
  | start next => remember (fun m => (m.1, m.2.start)) (start (counting next))
  | alter change next => alter change (counting next)
  | subscribe c n next => subscribe c n (counting next)
  | unsubscribe c n next => unsubscribe c n (counting next)

/-- The play without its calls. -/
def alone : Play σ α → Play σ α
  | done a => done a
  | fail f => fail f
  | consult next => consult fun m => alone (next m)
  | remember change next => remember change (alone next)
  | look next => look fun c s => alone (next c s)
  | lookLive next => lookLive fun c s => alone (next c s)
  | send e next => look fun c _ => alone (next (.deferral e c.state.text))
  | start next => alone next
  | alter change next => alter change (alone next)
  | subscribe c n next => subscribe c n (alone next)
  | unsubscribe c n next => unsubscribe c n (alone next)

end Play

namespace Interpreter

/-- The interpreter in surroundings whose calls are counted. -/
def counting (i : Interpreter σ) : Interpreter (σ × Calls) where
  automaton := i.automaton
  config := i.config
  surroundings :=
    i.surroundings.tell (fun r m => (i.surroundings.log r m.1, m.2)) fun _ => Play.counting

/-- The interpreter in surroundings without their calls. -/
def alone (i : Interpreter σ) : Interpreter σ where
  automaton := i.automaton
  config := i.config
  surroundings := i.surroundings.tell i.surroundings.log fun _ => Play.alone

end Interpreter

namespace Session

/-- A session in which some calls have been counted. -/
def counted (s : Session σ) (calls : Calls) : Session (σ × Calls) where
  live := s.live
  detached := s.detached
  queue := s.queue
  dispatching := s.dispatching
  transitionWatchers := s.transitionWatchers
  logWatchers := s.logWatchers
  edits := s.edits
  games := s.games
  copies := s.copies
  memory := (s.memory, calls)

/-- A session with the count of calls forgotten. -/
def uncounted (s : Session (σ × Calls)) : Session σ where
  live := s.live
  detached := s.detached
  queue := s.queue
  dispatching := s.dispatching
  transitionWatchers := s.transitionWatchers
  logWatchers := s.logWatchers
  edits := s.edits
  games := s.games
  copies := s.copies
  memory := s.memory.1

/-- The calls that have been counted. -/
def calls (s : Session (σ × Calls)) : Calls := s.memory.2

end Session

/-- How calls are counted. -/
def Calls.notes : Notes Calls := ⟨fun e c => c.send e, Calls.start⟩

/-- The count of calls is noted beside what is remembered. -/
theorem Play.counting_eq_beside (x : Play σ α) : x.counting = x.beside Calls.notes := by
  induction x with
  | done a => rfl
  | fail f => rfl
  | consult next ih => exact congrArg consult (funext fun m => ih m.1)
  | remember change next ih => exact congrArg _ ih
  | look next ih => exact congrArg _ (funext fun c => funext fun s => ih c s)
  | lookLive next ih => exact congrArg _ (funext fun c => funext fun s => ih c s)
  | send e next ih => exact congrArg (remember _ ∘ send e) (funext ih)
  | start next ih => exact congrArg (remember _ ∘ start) ih
  | alter change next ih => exact congrArg _ ih
  | subscribe c n next ih => exact congrArg _ ih
  | unsubscribe c n next ih => exact congrArg _ ih

theorem Interpreter.beside_counting (i : Interpreter σ) : Beside i i.counting where
  automaton := rfl
  config := rfl
  log _ _ := rfl

end TokenGate
