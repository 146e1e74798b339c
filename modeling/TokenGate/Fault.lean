import TokenGate.Event
import TokenGate.History
import TokenGate.Ledger

/-!
# Faults

What can end the handling of an event before it is done. A constraint that blocks is one of them:
it ends the handling of its own event only.
-/

namespace TokenGate

/-- The reason why something was given up. -/
inductive Fault where
  /-- A constraint blocks; the message is its own, if it has one. -/
  | blocked (constraint : String) (message : Option String)
  /-- An effect failed. -/
  | effect (text : String)
  /-- An event was sent that is none. -/
  | event (e : EventError)
  /-- The ledger refused. -/
  | ledger (e : LedgerError)
  /-- The history of the game cannot be kept to its limit. -/
  | limit (e : LimitError)
  /-- There is no game yet. -/
  | notStarted
  /-- An event is bound to something else than what a step is made for. -/
  | wrongRule (label bound expected : String)
  /-- A callback gave up, for a reason of some kind of its own. -/
  | raised (kind text : String)

/-- The text about a constraint that blocks; an empty message counts as none. -/
def blockedText (constraint : String) (message : Option String) : String :=
  let text := message.getD ""
  if text = "" then "Constraint '" ++ constraint ++ "' blocked the transition" else text

/-- The text of a fault. -/
def Fault.message : Fault → String
  | blocked constraint message => blockedText constraint message
  | effect text => text
  | event e => e.message
  | ledger e => e.message
  | limit e => e.message
  | notStarted => "Interpreter has not been started"
  | wrongRule label bound expected =>
      "Event " ++ label ++ " is bound to a " ++ bound ++ ", expected " ++ expected
  | raised _ text => text

/-- The kind of a fault. -/
def Fault.kind : Fault → String
  | blocked .. => "ConstraintBlockedError"
  | effect _ => "EffectExecutionError"
  | event _ | limit _ | wrongRule .. => "TypeError"
  | ledger e => e.kind
  | notStarted => "RuntimeError"
  | raised kind _ => kind

end TokenGate
