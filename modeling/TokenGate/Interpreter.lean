import TokenGate.Interpreter.Chain

/-!
# The interpreter

An event that is sent is dispatched against the state of the running game: it is ignored if the
state has no edge for it; otherwise its rule, if it has one, is handled, and unless that fails the
game moves along the edge, the event is recorded, and the watchers are told. Events that were sent
meanwhile are dispatched afterwards, in order. They are forgotten if something fails.
-/

namespace TokenGate

namespace Interpreter

variable {σ : Type}

/-- Starts the game, anew if there is one. -/
def start (i : Interpreter σ) (s : Session σ) : Session σ :=
  { i.restart s with detached := none }

/-- Moves the game of the event at hand along an edge and tells the watchers. -/
def move (i : Interpreter σ) (edge : Edge) (e : Event) : Act (Session σ) Unit := fun s =>
  let before := s.current
  let turn := match edge.event with
    | .gameplay .nextTurn => before.turn + 1
    | _ => before.turn
  let moved := { before with turn := turn, state := .phase edge.target }
  match moved.record e i.config.maxHistory with
  | .error f => (.error (.limit f), s.modifyCurrent fun _ => moved.append e)
  | .ok after =>
      i.notify
        { state := after.state.text
          previous := before.state.text
          event := e
          context := after.snapshot s.edits s.copies }
        (s.modifyCurrent fun _ => after).copied

/-- Handles the rule of an edge, if it has one; the verdict if it blocks, else the progress. -/
def handle (i : Interpreter σ) (edge : Edge) (e : Event) :
    Act (Session σ) (Except Fault Progress) := fun s =>
  match edge.entry? with
  | none => (.ok (.ok .none), s)
  | some entry =>
      match i.runChain (.rule entry.rule) e entry.steps ⟨s, .none⟩ with
      | (.ok (), h) => (.ok (.ok h.progress), h.session)
      | (.error (.blocked c m), h) => (.ok (.error (.blocked c m)), h.session)
      | (.error f, h) => (.error f, h.session)

/-- Dispatches an event along an edge. -/
def follow (i : Interpreter σ) (edge : Edge) (e : Event) : Act (Session σ) Response := do
  match ← i.handle edge e with
  | .error f =>
      let state := (← Act.get).current.state.text
      Act.change (i.report logger .info
        (e.type ++ " blocked in state " ++ state ++ ": " ++ f.message))
      return ⟨.blocked, e, state, { Progress.none with verdict := some .blocked }⟩
  | .ok progress =>
      i.move edge e
      return ⟨.transitioned, e, (← Act.get).current.state.text, progress⟩

/-- Dispatches an event. -/
def dispatch (i : Interpreter σ) (e : Event) : Act (Session σ) Response := fun s =>
  match s.live with
  | none =>
      (.ok ⟨.ignored, e, "", .none⟩,
        i.report logger .debug ("Ignoring " ++ e.type ++ ", interpreter not started") s)
  | some c =>
      match i.automaton.edge? c.state e.type with
      | none =>
          (.ok ⟨.ignored, e, c.state.text, .none⟩,
            i.report logger .debug ("Ignoring " ++ e.type ++ " in state " ++ c.state.text) s)
      | some edge =>
          match i.follow edge e s with
          | (outcome, s) => (outcome, { s with detached := none })

/-- Dispatches the events that wait, one after another, until none is left or one fails. The fuel
bounds how many there may be; if it runs out, there is no answer. -/
def drain (i : Interpreter σ) : Nat → Session σ → Option (Except Fault Unit × Session σ)
  | fuel, s =>
    match s.queue with
    | [] => some (.ok (), s)
    | e :: rest =>
        match fuel with
        | 0 => none
        | fuel + 1 =>
            match i.dispatch e { s with queue := rest } with
            | (.ok _, s) => drain i fuel s
            | (.error f, s) => some (.error f, s)

/-- Forgets the events that wait. -/
def forget (s : Session σ) : Session σ := { s with queue := [] }

/-- Dispatches an event, and then those that were sent meanwhile. There is no answer if these never
end, as far as the fuel lets see. -/
def cycle (i : Interpreter σ) (fuel : Nat) (e : Event) (s : Session σ) :
    Option (Except Fault Response × Session σ) :=
  match i.dispatch e s with
  | (.error f, s) => some (.error f, forget s)
  | (.ok answer, s) =>
      match i.drain fuel s with
      | none => none
      | some (.error f, s) => some (.error f, forget s)
      | some (.ok (), s) => some (.ok answer, s)

/-- Sends an event: it waits if another one is being dispatched, and otherwise it is dispatched with
those that are sent meanwhile. However that ends, it is over then. -/
def send (i : Interpreter σ) (fuel : Nat) (e : Event) (s : Session σ) :
    Option (Except Fault Response × Session σ) :=
  match s.defer? e with
  | some (answer, s) => some (.ok answer, s)
  | none => (i.cycle fuel e s.engage).map fun (outcome, s) => (outcome, s.release)

/-- Sends the event that data describes, if it describes one. -/
def sendData (i : Interpreter σ) (fuel : Nat) (d : Data) (s : Session σ) :
    Option (Except Fault Response × Session σ) :=
  match Event.ofData s.edits d with
  | .error e => some (.error (.event e), s)
  | .ok e => i.send fuel e s

/-- Whether the game is over. -/
def done (s : Session σ) : Bool :=
  match s.live with
  | some c => c.state.isTerminal
  | none => false

/-- The labels that the running game accepts in its state; none if there is no game or it is
over. -/
def available (i : Interpreter σ) (s : Session σ) : List String :=
  match s.live with
  | some c => if c.state.isTerminal then [] else (i.automaton.edgesFrom c.state).map Edge.label
  | none => []

/-- The snapshot of the running game that is to be made next. -/
def snapshot (s : Session σ) : Except Fault Snapshot :=
  match s.live with
  | some c => .ok (c.snapshot s.edits s.copies)
  | none => .error .notStarted

end Interpreter
end TokenGate
