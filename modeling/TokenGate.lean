import TokenGate.Fault.Made
import TokenGate.Ledger.Call
import TokenGate.Main
import TokenGate.Proofs.Automaton.Lookup
import TokenGate.Proofs.Ledger.Payment
import TokenGate.Proofs.Act.Ensures
import TokenGate.Proofs.Play.Permit
import TokenGate.Proofs.Interpreter.Steps
import TokenGate.Proofs.Interpreter.Settlement
import TokenGate.Proofs.Interpreter.Conservation
import TokenGate.Proofs.History
import TokenGate.Proofs.Interpreter.Dispatch
import TokenGate.Proofs.Act.Mirrors
import TokenGate.Proofs.Interpreter.Mirror
import TokenGate.Proofs.Interpreter.MirrorRun
import TokenGate.Proofs.Interpreter.Flattening
import TokenGate.Proofs.Definition.Rules
import TokenGate.Proofs.Ledger.Entries
import TokenGate.Proofs.Interpreter.Erasure
import TokenGate.Proofs.Condition.Derivation
import TokenGate.Proofs.Condition.Meaning
import TokenGate.Proofs.Condition.Reading
import TokenGate.Proofs.Condition.Acceptance
import TokenGate.Proofs.Automaton.Naming
import TokenGate.Proofs.Automaton.Collision
import TokenGate.Proofs.Automaton.NormalForm
import TokenGate.Proofs.Act.Keeps
import TokenGate.Proofs.Play.Restart
import TokenGate.Proofs.Interpreter.Upkeep
import TokenGate.Proofs.Interpreter.Reachable
import TokenGate.Proofs.Interpreter.Dispatching
import TokenGate.Proofs.Interpreter.Regularity
import TokenGate.Proofs.Interpreter.Answers
import TokenGate.Proofs.Interpreter.Story
import TokenGate.Proofs.Interpreter.Failure
import TokenGate.Proofs.Play.AtHand
import TokenGate.Proofs.Interpreter.Leftovers
import TokenGate.Proofs.Interpreter.Counting
import TokenGate.Proofs.Interpreter.Isolation
import TokenGate.Proofs.Automaton.Graph
import TokenGate.Proofs.Data
import TokenGate.Proofs.Interpreter.Sharing
import TokenGate.Proofs.Interpreter.Announcement
import TokenGate.Proofs.Interpreter.Chronicle
import TokenGate.Proofs.Interpreter.Notices
import TokenGate.Proofs.Interpreter.RuleLogs
import TokenGate.Proofs.Interpreter.Reaction
import TokenGate.Proofs.Interpreter.Skipping
import TokenGate.Proofs.Interpreter.Availability
import TokenGate.Proofs.Random.Play
import TokenGate.Proofs.Automaton.Plain
import TokenGate.Proofs.Act.Agree
import TokenGate.Proofs.Interpreter.Plain
import TokenGate.Proofs.Interpreter.Descriptions
import TokenGate.Proofs.Table
import TokenGate.Proofs.Json.Scalars
import TokenGate.Proofs.Json.RoundTrip
import TokenGate.Proofs.Value.Alike
import TokenGate.Proofs.Value.Order
import TokenGate.Proofs.Snapshot
import TokenGate.Proofs.Definition.Reading
import TokenGate.Proofs.Definition.Acceptance
import TokenGate.Proofs.Repository.Loading
import TokenGate.Proofs.Repository.Log
import TokenGate.Proofs.FirstSeen
import TokenGate.Proofs.Ledger.Consumption
import TokenGate.Proofs.Ledger.Sums
import TokenGate.Proofs.Ledger.Additivity
import TokenGate.Proofs.Interpreter.Reports
import TokenGate.Proofs.Text.Words
import TokenGate.Proofs.Text.Runs
import TokenGate.Proofs.Token.Words
import TokenGate.Proofs.Token.Multiset
import TokenGate.Proofs.Token.TextForm
import TokenGate.Proofs.Value.Amount
import TokenGate.Proofs.Ledger.Halting
import TokenGate.Proofs.Token.Counts
import TokenGate.Proofs.Condition.Layout
import TokenGate.Proofs.Condition.Resolution
import TokenGate.Proofs.Condition.Composition
import TokenGate.Proofs.Condition.Comparison
import TokenGate.Proofs.Data.Strike
import TokenGate.Proofs.Effect
import TokenGate.Proofs.Effect.Outcome
import TokenGate.Proofs.Interpreter.BuiltIn
import TokenGate.Proofs.Interpreter.Audience
