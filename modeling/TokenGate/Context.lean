import TokenGate.Condition.Scope
import TokenGate.Digest.Sha256
import TokenGate.Event
import TokenGate.History
import TokenGate.Json.Writer
import TokenGate.Phase

/-!
# The context of a running game

Everything that changes while a game runs, and snapshots of it. A context has the data that its game
began with, and what has become of that is told by the edits. A snapshot has a copy of the game's
data; the events in its history stay the events that were sent. Its digest is the hash of its
canonical text.
-/

namespace TokenGate

/-- The condition of a running game. -/
structure Context where
  ledger : Ledger
  turn : Int
  state : State
  /-- The events that led here, oldest first. -/
  history : List Event
  /-- Which game it is. -/
  number : Nat
  /-- The data that the game began with. -/
  game : List (String × Data)
  /-- The names of the effects that have been applied. -/
  applied : List String

/-- A snapshot of a running game. -/
structure Snapshot where
  state : String
  turn : Value
  ledger : List (String × Nat)
  history : List Event
  /-- A copy of the game's data. -/
  game : Data
  applied : List Value

namespace Context

/-- A game that has just started, the one with the given number. -/
def fresh (number : Nat) (tokens : List String) (game : Fields) : Context where
  ledger := .ofTokens tokens
  turn := 1
  state := .initial
  history := []
  number := number
  game := Data.ownFields number game
  applied := []

instance : Inhabited Context := ⟨fresh 0 [] []⟩

/-- The game's data as others hold it. -/
def data (c : Context) : Data := .game c.number c.game

/-- The entries of the game's data. -/
def entries (s : Edits) (c : Context) : List (String × Data) := s.entries c.number c.game

/-- The values of the game's data. -/
def fields (s : Edits) (c : Context) : Fields := Data.readFields s.view (c.entries s)

/-- Adds an event to the history. -/
def append (c : Context) (e : Event) : Context :=
  { c with history := c.history ++ [e] }

/-- Adds an event to the history and keeps that to its limit. -/
def record (c : Context) (e : Event) (limit : HistoryLimit) : Except LimitError Context :=
  (limit.keepLast (c.append e).history).map fun kept => { c with history := kept }

/-- Setting an entry of the game's data. -/
def put (c : Context) (key : String) (d : Data) : Edit := .put c.number key d

/-- The snapshot with a number. -/
def snapshot (s : Edits) (number : Nat) (c : Context) : Snapshot where
  state := c.state.text
  turn := .int c.turn
  ledger := c.ledger.entries
  history := c.history
  game := .object (Data.recastFields (.copied number) (Data.presentFields s.view (c.entries s)))
  applied := c.applied.map .str

/-- What conditions see while an event is handled. -/
def scope (a : Condition.Attributes) (s : Edits) (c : Context) (e : Event) :
    Condition.Scope where
  payload := ((e.payload.read s.view).fields?).getD []
  game := .object (c.fields s)
  turn := .int c.turn
  state := .str c.state.text
  ledger := some c.ledger
  attributes := a

end Context

namespace Snapshot

/-- A snapshot as a value. -/
def toValue (s : Edits) (n : Snapshot) : Value :=
  .object [
    ("state", .str n.state),
    ("turn", n.turn),
    ("ledger", .object (n.ledger.map fun (t, k) => (t, .int k))),
    ("move_history", .list (n.history.map (Event.toValue s))),
    ("game_state", n.game.read s.view),
    ("applied_effects", .list n.applied)]

/-- The text that is hashed for the digest. -/
def canonicalText (s : Edits) (n : Snapshot) : String := Json.canonical (n.toValue s)

/-- The digest of a snapshot. -/
def digest (s : Edits) (n : Snapshot) : String := Sha256.hashText (n.canonicalText s)

end Snapshot
end TokenGate
