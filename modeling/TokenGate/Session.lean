import TokenGate.Automaton
import TokenGate.Condition.Usual
import TokenGate.Effect
import TokenGate.Fault
import TokenGate.Observer
import TokenGate.Response

/-!
# Sessions

A session is an interpreter at work: the game that is running, the events that wait, those who
watch, and the memory of the surroundings. Whatever the surroundings do while an event is handled,
in effects, predicates or as watchers, is a `Play`: a sequence of moves, each of which may depend
on what the moves before have brought. An event that is sent while another one is being dispatched,
which the session knows, waits until that one is done.

If a play starts the game anew, the event at hand goes on in the game it was sent to, which is
then detached from the session. A play, too, stays with the game that it was begun with.
-/

namespace TokenGate

/-- The two things that can be watched. -/
inductive Channel where
  | transitions
  | logs
  deriving DecidableEq, Repr

/-- What the surroundings do during the handling of an event; `σ` is what they remember. -/
inductive Play (σ α : Type) where
  /-- Nothing more, with a result. -/
  | done (result : α)
  /-- Give up. -/
  | fail (fault : Fault)
  /-- Look into the memory. -/
  | consult (next : σ → Play σ α)
  /-- Change the memory. -/
  | remember (change : σ → σ) (next : Play σ α)
  /-- Look at the game. -/
  | look (next : Context → Edits → Play σ α)
  /-- Look at the game that is running, which may have been started since. -/
  | lookLive (next : Context → Edits → Play σ α)
  /-- Send an event; the answer is handed on. -/
  | send (event : Event) (next : Response → Play σ α)
  /-- Start the game anew. -/
  | start (next : Play σ α)
  /-- Change the game, or make edits. -/
  | alter (change : Context × Edits → Context × Edits) (next : Play σ α)
  /-- Add a watcher. -/
  | subscribe (channel : Channel) (name : String) (next : Play σ α)
  /-- Remove a watcher where it was added first. -/
  | unsubscribe (channel : Channel) (name : String) (next : Play σ α)

namespace Play

variable {σ α β : Type}

/-- One play after another. -/
def bind : Play σ α → (α → Play σ β) → Play σ β
  | done a, k => k a
  | fail f, _ => fail f
  | consult next, k => consult fun m => bind (next m) k
  | remember change next, k => remember change (bind next k)
  | look next, k => look fun c s => bind (next c s) k
  | lookLive next, k => lookLive fun c s => bind (next c s) k
  | send e next, k => send e fun answer => bind (next answer) k
  | start next, k => start (bind next k)
  | alter change next, k => alter change (bind next k)
  | subscribe c n next, k => subscribe c n (bind next k)
  | unsubscribe c n next, k => unsubscribe c n (bind next k)

instance : Monad (Play σ) where
  pure := done
  bind := bind

/-- Sets an entry of the game's data. -/
def set (key : String) (data : Data) (next : Play σ α) : Play σ α :=
  alter (fun (c, s) => (c, s ++ [c.put key data])) next

/-- Grants tokens. -/
def grant (token : String) (amount : Value) (next : Play σ α) : Play σ α :=
  look fun c _ =>
    match c.ledger.grantAmount token amount with
    | .ok l => alter (fun (c, s) => ({ c with ledger := l }, s)) next
    | .error e => fail (.ledger e)

end Play

/-- How an effect is applied. -/
inductive EffectHandler (σ : Type) where
  | setFlag
  | removePiece
  | custom (play : Data → Play σ Unit)

/-- The surroundings of an interpreter. Their observer is the one that is told of things: nobody, if
none was given or the one that was given counts as false. -/
structure Surroundings (σ : Type) where
  /-- Takes note of a log record. -/
  log : Record → σ → σ
  /-- The effects, by name. -/
  effects : Table (EffectHandler σ)
  /-- The predicates of constraints, by key. -/
  predicate : String → Event → Play σ Value
  /-- The observer that is told of transitions before all watchers. -/
  onTransition : Notice → Play σ Unit
  /-- The observer that is told of rule logs before all watchers. -/
  onRuleLog : RuleLog → Play σ Unit
  /-- The watchers of transitions, by name. -/
  transitionWatcher : String → Notice → Play σ Unit
  /-- The watchers of rule logs, by name. -/
  logWatcher : String → RuleLog → Play σ Unit

/-- The effects that every game has unless told otherwise. -/
def EffectHandler.usual {σ : Type} : Table (EffectHandler σ) :=
  Table.ofList [("set_flag", .setFlag), ("remove_piece", .removePiece)]

/-- The message about an effect that is registered under a name that is taken. -/
def takenEffectText (name : String) : String :=
  "Handler already registered for effect '" ++ name ++ "'"

/-- Registers an effect under a name, unless that is taken. -/
def EffectHandler.register {σ : Type} (effects : Table (EffectHandler σ)) (name : String)
    (handler : EffectHandler σ) : Option (Table (EffectHandler σ)) :=
  if effects.contains name then none else some (effects.put name handler)

/-- Registers effects under names, in order; the first name that is taken if there is one. -/
def EffectHandler.registerAll {σ : Type} (effects : Table (EffectHandler σ)) :
    List (String × EffectHandler σ) → Except String (Table (EffectHandler σ))
  | [] => .ok effects
  | (name, handler) :: rest =>
      match register effects name handler with
      | some effects => registerAll effects rest
      | none => .error name

namespace Surroundings

variable {σ : Type}

/-- Surroundings that only take note of log records. -/
def quiet (log : Record → σ → σ) : Surroundings σ where
  log := log
  effects := EffectHandler.usual
  predicate _ _ := .done .null
  onTransition _ := .done ()
  onRuleLog _ := .done ()
  transitionWatcher _ _ := .done ()
  logWatcher _ _ := .done ()

/-- Surroundings whose observer takes note of what it is told as well. -/
def logging (log : Record → σ → σ) : Surroundings σ :=
  { quiet log with
    onTransition n := .remember (log n.record) (.done ())
    onRuleLog l := .remember (log l.record) (.done ()) }

end Surroundings

/-- How an interpreter behaves where there is a choice. -/
structure Config where
  /-- Whether the effect of an action is skipped when its cost cannot be paid. -/
  skipUnpaid : Bool
  /-- How many events the history keeps. -/
  maxHistory : HistoryLimit
  /-- What conditions find besides data. -/
  attributes : Condition.Attributes

/-- The usual behaviour. -/
def Config.usual : Config := ⟨true, .unlimited, .usual⟩

/-- An interpreter: a compiled definition, a behaviour, and surroundings. -/
structure Interpreter (σ : Type) where
  automaton : Automaton
  config : Config
  surroundings : Surroundings σ

/-- An interpreter at work. -/
structure Session (σ : Type) where
  /-- The game that is running, once it has been started. -/
  live : Option Context
  /-- The game of the event at hand, if the game was started anew meanwhile. -/
  detached : Option Context
  /-- The events that wait, the next one first. -/
  queue : List Event
  /-- Whether an event is being dispatched. -/
  dispatching : Bool
  transitionWatchers : List String
  logWatchers : List String
  /-- What has been done to data that may have several holders. -/
  edits : Edits
  /-- The number of the last game that was started; zero if none was. -/
  games : Nat
  /-- How many snapshots have been made. -/
  copies : Nat
  memory : σ

namespace Session

variable {σ : Type}

/-- A session before its first start. -/
def idle (memory : σ) : Session σ where
  live := none
  detached := none
  queue := []
  dispatching := false
  transitionWatchers := []
  logWatchers := []
  edits := []
  games := 0
  copies := 0
  memory := memory

/-- The game of the event at hand. -/
def current (s : Session σ) : Context := (s.detached <|> s.live).getD default

/-- Changes the game that is running. -/
def modifyLive (f : Context → Context) (s : Session σ) : Session σ :=
  { s with live := s.live.map f }

/-- Changes the game of the event at hand. -/
def modifyCurrent (f : Context → Context) (s : Session σ) : Session σ :=
  match s.detached with
  | some c => { s with detached := some (f c) }
  | none => s.modifyLive f

/-- The text of the state of the game that is running; nothing before the first start. -/
def stateText (s : Session σ) : String :=
  match s.live with
  | some c => c.state.text
  | none => ""

/-- The answer to an event that is sent while another one is being dispatched, and the session in
which it waits; nothing if none is. -/
def defer? (e : Event) (s : Session σ) : Option (Response × Session σ) :=
  if s.dispatching then
    some (.deferral e s.stateText, { s with queue := s.queue ++ [e] })
  else none

/-- Makes an edit. -/
def edit (edit : Edit) (s : Session σ) : Session σ := { s with edits := s.edits ++ [edit] }

/-- The session once a snapshot has been made. -/
def copied (s : Session σ) : Session σ := { s with copies := s.copies + 1 }

/-- The session when the dispatch of an event begins. -/
def engage (s : Session σ) : Session σ := { s with dispatching := true }

/-- The session when the dispatch of an event is over. -/
def release (s : Session σ) : Session σ := { s with dispatching := false }

theorem engage_release {s : Session σ} (h : s.dispatching = true) : s.release.engage = s := by
  rw [release, engage, ← h]

/-- The number of a new game. No game of the session has it, and nothing has been done to one that
has. -/
def newNumber (s : Session σ) : Nat :=
  let known := (s.live.toList ++ s.detached.toList).map Context.number
  (known ++ s.edits.filterMap Edit.game?).foldl max s.games + 1

/-- Starts the game anew, as the one with a number, while an event may be at hand. -/
def startAs (a : Automaton) (number : Nat) (s : Session σ) : Session σ :=
  { s with
    live := some (.fresh number a.tokenTypes a.definition.initial)
    detached := s.detached <|> s.live
    queue := []
    games := number }

/-- Starts the game anew while an event may be at hand. -/
def restart (a : Automaton) (s : Session σ) : Session σ := s.startAs a s.newNumber

/-- Adds a watcher. -/
def subscribe (channel : Channel) (name : String) (s : Session σ) : Session σ :=
  match channel with
  | .transitions => { s with transitionWatchers := s.transitionWatchers ++ [name] }
  | .logs => { s with logWatchers := s.logWatchers ++ [name] }

/-- Adds a watcher from outside. Before the first start there is nothing to watch. -/
def watch? (channel : Channel) (name : String) (s : Session σ) : Option (Session σ) :=
  s.live.map fun _ => s.subscribe channel name

/-- Removes a watcher where it was added first, if it is there. -/
def unsubscribe (channel : Channel) (name : String) (s : Session σ) : Session σ :=
  match channel with
  | .transitions => { s with transitionWatchers := s.transitionWatchers.erase name }
  | .logs => { s with logWatchers := s.logWatchers.erase name }

end Session

/-- Which game a play is about. -/
inductive Hold where
  /-- The game of the event at hand. -/
  | current
  /-- The game that is running. -/
  | live
  /-- A game that nobody else knows any more. -/
  | left (game : Context)

/-- A session with the game that a play is about. -/
structure Stage (σ : Type) where
  session : Session σ
  hold : Hold

namespace Stage

variable {σ : Type}

/-- The game that the play is about. -/
def game (g : Stage σ) : Context :=
  match g.hold with
  | .current => g.session.current
  | .live => g.session.live.getD default
  | .left c => c

/-- Changes the game that the play is about. -/
def modify (f : Context → Context) (g : Stage σ) : Stage σ :=
  match g.hold with
  | .current => { g with session := g.session.modifyCurrent f }
  | .live => { g with session := g.session.modifyLive f }
  | .left c => { g with hold := .left (f c) }

/-- Changes the game that the play is about, or makes edits. -/
def alter (change : Context × Edits → Context × Edits) (g : Stage σ) : Stage σ :=
  let after := change (g.game, g.session.edits)
  let changed := g.modify fun _ => after.1
  { changed with session := { changed.session with edits := after.2 } }

/-- How a play that is about the running game comes to hold it when a new one takes its place: it
is then that of the event at hand, unless this had been detached before. -/
def holdAfterRestart (g : Stage σ) : Hold :=
  match g.hold, g.session.detached with
  | .live, none => .current
  | .live, some _ => .left g.game
  | hold, _ => hold

end Stage

/-- An activity on a state, which may be given up but keeps what it has changed until then. -/
def Act (S α : Type) : Type := S → Except Fault α × S

namespace Act

variable {S T α β : Type}

/-- No activity. -/
protected def pure (a : α) : Act S α := fun s => (.ok a, s)

/-- One activity after another, unless the first is given up. -/
protected def bind (x : Act S α) (k : α → Act S β) : Act S β := fun s =>
  match x s with
  | (.ok a, s) => k a s
  | (.error f, s) => (.error f, s)

instance : Monad (Act S) where
  pure := Act.pure
  bind := Act.bind

/-- Gives up. -/
def fail (f : Fault) : Act S α := fun s => (.error f, s)

/-- The state. -/
def get : Act S S := fun s => (.ok s, s)

/-- Changes the state. -/
def change (f : S → S) : Act S Unit := fun s => (.ok (), f s)

/-- The outcome of an activity, given up or not. -/
def attempt (x : Act S α) : Act S (Except Fault α) := fun s =>
  match x s with
  | (outcome, s) => (.ok outcome, s)

/-- An activity on a part of the state. -/
def on (get : T → S) (put : S → T → T) (x : Act S α) : Act T α := fun t =>
  match x (get t) with
  | (outcome, s) => (outcome, put s t)

@[simp] theorem pure_apply (a : α) (s : S) : (pure a : Act S α) s = (.ok a, s) := rfl

/-- What one activity after another comes to. -/
theorem bind_apply (x : Act S α) (k : α → Act S β) (s : S) :
    (x >>= k) s = match x s with
      | (.ok a, s) => k a s
      | (.error f, s) => (.error f, s) := rfl

/-- What is given up is not gone on with. -/
@[simp] theorem fail_bind (f : Fault) (k : α → Act S β) : (fail f : Act S α) >>= k = fail f := rfl

@[simp] theorem pure_bind (a : α) (k : α → Act S β) : (pure a : Act S α) >>= k = k a := rfl

end Act

namespace Interpreter

variable {σ α : Type}

/-- Reports to the surroundings. -/
def report (i : Interpreter σ) (logger : String) (level : Level) (message : String)
    (s : Session σ) : Session σ :=
  { s with memory := i.surroundings.log ⟨logger, level, message⟩ s.memory }

/-- The name under which the interpreter reports. -/
def logger : String := "automaton.interpreter"

/-- The report on a start. -/
def startedText (a : Automaton) : String :=
  "Started '" ++ a.definition.name ++ "' with tokens " ++
    (Value.list (a.tokenTypes.map .str)).written

/-- Starts the game, anew if there is one, while an event may be at hand. -/
def restart (i : Interpreter σ) (s : Session σ) : Session σ :=
  i.report logger .debug (startedText i.automaton) (s.restart i.automaton)

/-- Makes the moves of a play. Plays are made while an event is dispatched, so that one that they
send has to wait. -/
def make (i : Interpreter σ) : Play σ α → Act (Stage σ) α
  | .done a => fun g => (.ok a, g)
  | .fail f => fun g => (.error f, g)
  | .consult next => fun g => i.make (next g.session.memory) g
  | .remember change next => fun g =>
      i.make next { g with session.memory := change g.session.memory }
  | .look next => fun g => i.make (next g.game g.session.edits) g
  | .lookLive next => fun g => i.make (next (g.session.live.getD default) g.session.edits) g
  | .send e next => fun g =>
      match g.session.defer? e with
      | some (answer, s) => i.make (next answer) { g with session := s }
      | none => i.make (next ⟨.ignored, e, g.session.stateText, .none⟩) g
  | .start next => fun g => i.make next ⟨i.restart g.session, g.holdAfterRestart⟩
  | .alter change next => fun g => i.make next (g.alter change)
  | .subscribe channel name next => fun g =>
      i.make next { g with session := g.session.subscribe channel name }
  | .unsubscribe channel name next => fun g =>
      i.make next { g with session := g.session.unsubscribe channel name }

section Sends

variable {i : Interpreter σ} {e : Event} {k : Response → Play σ α} {g : Stage σ}

/-- An event that a play sends while another one is being dispatched waits. -/
theorem make_send_of_dispatching (h : g.session.dispatching = true) :
    i.make (.send e k) g =
      i.make (k (.deferral e g.session.stateText))
        { g with session.queue := g.session.queue ++ [e] } := by
  simp only [make, Session.defer?, h, if_true]

/-- Nothing comes of an event that a play sends while none is being dispatched. -/
theorem make_send_of_idle (h : g.session.dispatching = false) :
    i.make (.send e k) g = i.make (k ⟨.ignored, e, g.session.stateText, .none⟩) g := by
  simp only [make, Session.defer?, h, if_false, Bool.false_eq_true]

/-- An event that a play sends waits, or nothing comes of it. -/
theorem make_send_cases {P : Except Fault α × Stage σ → Prop}
    (waits : P (i.make (k (.deferral e g.session.stateText))
      { g with session.queue := g.session.queue ++ [e] }))
    (idle : P (i.make (k ⟨.ignored, e, g.session.stateText, .none⟩) g)) :
    P (i.make (.send e k) g) := by
  cases h : g.session.dispatching with
  | true => exact make_send_of_dispatching h ▸ waits
  | false => exact make_send_of_idle h ▸ idle

end Sends

/-- The moves of one play after another are made one after another. -/
theorem make_bind {β : Type} (i : Interpreter σ) (p : Play σ α) (k : α → Play σ β) :
    i.make (p.bind k) = i.make p >>= fun a => i.make (k a) := by
  funext g
  induction p generalizing g with
  | done a => rfl
  | fail f => rfl
  | consult next ih => exact ih g.session.memory g
  | remember change next ih => exact ih _
  | look next ih => exact ih _ _ g
  | lookLive next ih => exact ih _ _ g
  | send e next ih =>
    rw [Act.bind_apply]
    simp only [Play.bind, make]
    cases g.session.defer? e with
    | some deferred => exact ih _ _
    | none => exact ih _ _
  | start next ih => exact ih _
  | alter change next ih => exact ih _
  | subscribe channel name next ih => exact ih _
  | unsubscribe channel name next ih => exact ih _

/-- Makes the moves of a play that is begun with some game. -/
def perform (i : Interpreter σ) (hold : Hold) (play : Play σ α) : Act (Session σ) α :=
  (i.make play).on (fun s => ⟨s, hold⟩) fun g _ => g.session

/-- Performs a play with the running game for every member of a list, in order. -/
def performAll (i : Interpreter σ) (play : String → Play σ Unit) :
    List String → Act (Session σ) Unit
  | [] => pure ()
  | name :: rest => do
      i.perform .live (play name)
      i.performAll play rest

/-- Tells the observer and then all watchers of a transition. -/
def notify (i : Interpreter σ) (n : Notice) : Act (Session σ) Unit := do
  i.perform .live (i.surroundings.onTransition n)
  i.performAll (i.surroundings.transitionWatcher · n) (← Act.get).transitionWatchers

/-- Tells the observer and then all watchers of a rule log. -/
def notifyLog (i : Interpreter σ) (l : RuleLog) : Act (Session σ) Unit := do
  i.perform .live (i.surroundings.onRuleLog l)
  i.performAll (i.surroundings.logWatcher · l) (← Act.get).logWatchers

end Interpreter
end TokenGate
