import TokenGate.Condition.Scope

/-!
# Where conditions are evaluated

A condition is evaluated where something is known of a game and of an event. Nothing needs to be
known of either; what is not known of the game is null, and data of an event that is no object, or
of no event, has no keys.
-/

namespace TokenGate.Condition

/-- What is known of a game. -/
structure Setting where
  game : Option Value
  turn : Option Value
  state : Option Value
  ledger : Option Ledger

/-- What is known of an event: nothing, the data that describes it, or the data that comes with
it. -/
inductive Occasion where
  | none
  | described (v : Value)
  | sent (payload : Value)

/-- The object that comes with an event, if one does. -/
def Occasion.payload? : Occasion → Option Fields
  | none => .none
  | described (.object fields) => (Value.field fields "payload").fields?
  | described _ => .none
  | sent payload => payload.fields?

/-- What conditions see in a setting on an occasion. -/
def Setting.scope (c : Setting) (a : Attributes) (e : Occasion) : Scope where
  payload := e.payload?.getD []
  game := gameData (c.game.getD .null)
  turn := c.turn.getD .null
  state := c.state.getD .null
  ledger := c.ledger
  attributes := a

/-- What the path that a text writes stands for in a setting on an occasion. -/
def resolveName (a : Attributes) (path : String) (c : Setting) (e : Occasion) :
    Except NoKeys Operand :=
  resolve? (c.scope a e) (.ofText path)

end TokenGate.Condition
