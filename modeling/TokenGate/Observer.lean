import TokenGate.Automaton.Label
import TokenGate.Context
import TokenGate.Log

/-!
# Notices

What those who watch a game are told: a notice after every transition, and a rule log for every
rule that has been handled. Each can be put into one line of text.
-/

namespace TokenGate

/-- A transition that has happened. -/
structure Notice where
  state : String
  previous : String
  event : Event
  context : Snapshot

/-- A rule that has been handled, with the balances then. -/
structure RuleLog where
  kind : EventKind
  event : Event
  ledger : List (String × Nat)
  detail : String

/-- Balances in messages. -/
def balancesText (ledger : List (String × Nat)) : String :=
  (Value.object (ledger.map fun (t, n) => (t, .int n))).written

/-- A notice in one line. -/
def Notice.line (n : Notice) : String :=
  "State: " ++ n.previous ++ " -> " ++ n.state ++ " via " ++ n.event.type ++ ", tokens=" ++
    balancesText n.context.ledger

/-- A rule log in one line. -/
def RuleLog.line (l : RuleLog) : String :=
  l.kind.title ++ " " ++ l.event.type ++ ": " ++ l.detail ++ " tokens=" ++ balancesText l.ledger

/-- The name under which an observer reports what it is told. -/
def observerLogger : String := "automaton.observer"

/-- The record of a notice. -/
def Notice.record (n : Notice) : Record := ⟨observerLogger, .info, n.line⟩

/-- The record of a rule log. -/
def RuleLog.record (l : RuleLog) : Record := ⟨observerLogger, .info, l.line⟩

end TokenGate
