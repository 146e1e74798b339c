import TokenGate.Condition.Operand
import TokenGate.Ledger

/-!
# What conditions see

A condition is evaluated against the data of an event and of the game. A dotted path is resolved
by a fixed precedence: `turn` and `state` alone, `ledger` with a token name, `payload` and
`game_state` followed by keys; any other path starts at a key of the event's data if there is
one, and at a key of the game's data otherwise. What is not there is null. Game data that is no
object has no keys; a scope with such data, which no running game has, fails the paths that start
at a key of it.
-/

namespace TokenGate.Condition

/-- The data that a condition is evaluated against. -/
structure Scope where
  /-- The data of the event. -/
  payload : Fields
  /-- The data of the game, as a rule an object. -/
  game : Value
  turn : Value
  state : Value
  ledger : Option Ledger
  /-- What there is besides data. -/
  attributes : Attributes

/-- The scope in which everything is missing. -/
def Scope.empty : Scope := ⟨[], .object [], .null, .null, none, .none⟩

/-- Data as the data of a game: what counts as false is as good as an empty object. -/
def gameData (v : Value) : Value := if v.truth then v else .object []

/-- A dotted path: its first name and the names after it. -/
structure Path where
  head : String
  rest : List String
  deriving DecidableEq, Repr

/-- The path that a text writes, cut at its points. -/
def Path.ofText (text : String) : Path :=
  match text.toList.splitOn '.' with
  | [] => ⟨text, []⟩
  | head :: rest => ⟨String.ofList head, rest.map String.ofList⟩

/-- What a path stands for in a scope. -/
def resolve (s : Scope) (p : Path) : Operand :=
  if p.head = "turn" ∧ p.rest = [] then .value s.turn
  else if p.head = "state" ∧ p.rest = [] then .value s.state
  else if p.head = "ledger" then
    match s.ledger, p.rest with
    | some l, [token] => .value (.int (l.balance token))
    | _, _ => .value .null
  else if p.head = "payload" then s.attributes.walk ["payload"] (.value (.object s.payload)) p.rest
  else if p.head = "game_state" then s.attributes.walk ["game_state"] (.value s.game) p.rest
  else match Entries.get? p.head s.payload with
    | some v => s.attributes.walk [p.head, "payload"] (.value v) p.rest
    | none =>
        let v := Value.field (s.game.fields?.getD []) p.head
        s.attributes.walk [p.head, "game_state"] (.value v) p.rest

/-- Whether a path starts at a key of the game's data. -/
def Scope.startsInGame (s : Scope) (p : Path) : Bool :=
  !((p.head = "turn" ∨ p.head = "state") ∧ p.rest = []) &&
    p.head ∉ ["ledger", "payload", "game_state"] && (Entries.get? p.head s.payload).isNone

/-- A path that starts at a key of game data that has none; `kind` is what the data is. -/
structure NoKeys where
  kind : String

/-- The text about game data without keys. -/
def NoKeys.message (e : NoKeys) : String := lacksText e.kind "get"

/-- Whether a path cannot be resolved, for want of an object to look its first name up in. -/
def Scope.fails (s : Scope) (p : Path) : Bool := s.game.fields?.isNone && s.startsInGame p

/-- What a path stands for in a scope, unless the path fails. -/
def resolve? (s : Scope) (p : Path) : Except NoKeys Operand :=
  if s.fails p then .error ⟨s.game.kindName⟩ else .ok (resolve s p)

end TokenGate.Condition
