import TokenGate.Definition.Numeral
import TokenGate.Demo.Chess
import TokenGate.Demo.Options
import TokenGate.Log.Setup
import TokenGate.Random.Generator
import TokenGate.Random.Play
import TokenGate.Repository

/-!
# The demonstration

Plays a game at random and shows the log of it, which ends with a summary.
-/

namespace TokenGate.Demo

open Logging (LevelError)

/-- What can go wrong with the demonstration. -/
inductive DemoError where
  | usage (e : UsageError)
  /-- The level is left with nothing. -/
  | noLevel
  | level (e : LevelError)
  | rules (e : RepositoryError)
  | build (e : BuildError)
  | play (e : Random.PlayError Random.SeedError)

/-- The text of a demonstration error. -/
def DemoError.message : DemoError → String
  | usage e => toString e.code
  | noLevel => lacksText Options.nothing.kindName "upper"
  | level e => e.message
  | rules e => e.message
  | build e => e.message
  | play e => e.message Random.SeedError.message

/-- The report on a definition that has been compiled. -/
def compiledText (a : Automaton) : String :=
  "Compiled '" ++ a.definition.name ++ "': " ++ toString a.graph.length ++ " states, " ++
    toString a.catalog.length ++ " catalog events, tokens=" ++
    (Value.list (a.tokenTypes.map .str)).written

/-- How much of the digest the summary shows. -/
def digestLength : Nat := 12

/-- The summary of a game. -/
def summaryText (events : Nat) (s : Edits) (n : Snapshot) : String :=
  "Finished after " ++ toString events ++ " events: state=" ++ n.state ++ " turn=" ++
    n.turn.shown ++ " tokens=" ++ balancesText n.ledger ++ " digest=" ++
    String.ofList ((n.digest s).toList.take digestLength)

/-- The log of a game of a definition, with all records. -/
def records (d : Definition) (o : Options) : Except DemoError (List Record) := do
  let a ← (Automaton.build d).mapError .build
  let i : Interpreter (List Record) :=
    ⟨a, .usual, .logging fun r log => log ++ [r]⟩
  let begun : List Record :=
    [⟨Logging.rootName, .debug, "Logging initialized."⟩,
      ⟨"automaton.builder", .debug, compiledText a⟩]
  let steps := o.steps.elim Options.nothing .int
  let game ← (Random.runFor .usual i 0 steps (.list (o.seed.map .int)) (.idle begun)).mapError .play
  let text := summaryText game.answers.length game.session.edits game.final
  return game.session.memory ++ [⟨Logging.rootName, .info, text⟩]

/-- The definition to be played: that of the file, or chess. -/
def definition (find : String → Found) (o : Options) : Except DemoError Definition :=
  match o.rules with
  | .chess => (Definition.ofValue .usual chessRules).mapError fun m => .rules (.malformed m)
  | .file path =>
      (Repository.single .usual (Location.ofText path).text (find path)).mapError .rules
  | .nothing => .error (.rules (.notAPath Options.nothing.kindName))

/-- The level from which on records are shown; `named` says which one a name means. -/
def level (named : String → Except LevelError Int) (o : Options) : Except DemoError Int :=
  match o.level with
  | some name => (named name).mapError .level
  | none => .error .noLevel

/-- Runs the demonstration for arguments, given what is found at a path and the level that a name
means; the records that are shown. -/
def run (find : String → Found) (named : String → Except LevelError Int) (args : List String) :
    Except DemoError (List Record) := do
  let o ← (Options.read args).mapError .usage
  let level ← level named o
  let d ← definition find o
  return (← records d o).filter (Logging.shows level)

end TokenGate.Demo
