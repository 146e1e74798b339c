import TokenGate.Interpreter
import TokenGate.Random.Source

/-!
# Random play

A player that chooses at random among the events which the game accepts, until the game is over
or a number of steps has been made. Where the random numbers come from is left open. The same seed
gives the same game.
-/

namespace TokenGate.Random

variable {σ γ ε : Type}

/-- Chooses a label. -/
def choose (source : Source γ ε) (labels : List String) (g : γ) : Option String × γ :=
  match labels with
  | [] => (none, g)
  | labels =>
      let (n, g) := source.draw labels.length g
      (labels[n]?, g)

/-- What random play comes to: the answers to the events, unless one fails, the generator after
the last choice, and the session. -/
structure Game (σ γ : Type) where
  answers : Except Fault (List Response)
  generator : γ
  session : Session σ

namespace Game

/-- Puts the answer to an earlier event before the others. -/
def cons (answer : Response) (g : Game σ γ) : Game σ γ :=
  { g with answers := g.answers.map (answer :: ·) }

/-- The report on a step of random play. -/
def stepText (n : Nat) (label : String) (answer : Response) : String :=
  "step=" ++ toString n ++ " event=" ++ label ++ " outcome=" ++ answer.outcome.text

/-- Plays on from step `n`. -/
def playOn (source : Source γ ε) (i : Interpreter σ) (fuel : Nat) :
    Nat → Nat → γ → Session σ → Option (Game σ γ)
  | 0, _, g, s => some ⟨.ok [], g, s⟩
  | steps + 1, n, g, s =>
      match choose source (i.available s) g with
      | (none, g) => some ⟨.ok [], g, s⟩
      | (some label, g) =>
          match i.send fuel ⟨label, .object []⟩ s with
          | none => none
          | some (.error f, s) => some ⟨.error f, g, s⟩
          | some (.ok answer, s) =>
              let s := i.report "agents.random_agent" .debug (stepText n label answer) s
              (Game.playOn source i fuel steps (n + 1) g s).map (Game.cons answer)

/-- Starts the game and plays at most so many steps. -/
def play (source : Source γ ε) (i : Interpreter σ) (fuel steps : Nat) (g : γ) (s : Session σ) :
    Option (Game σ γ) :=
  Game.playOn source i fuel steps 1 g (i.start s)

/-- The number of steps where none is said. -/
def usualSteps : Nat := 100

end Game

/-- Why there is no outcome of random play. -/
inductive PlayError (ε : Type) where
  | seed (e : ε)
  /-- The number of steps is no number; `kind` is what it is. -/
  | notACount (kind : String)
  /-- The events that are sent during others do not come to an end, as far as the fuel lets see. -/
  | endless
  | fault (f : Fault)

/-- The text of a play error, given that of a seed error. -/
def PlayError.message (seedText : ε → String) : PlayError ε → String
  | seed e => seedText e
  | notACount kind => "'" ++ kind ++ "' object cannot be interpreted as an integer"
  | endless => "endless game"
  | fault f => f.message

/-- What has come of random play: the answers to the events, the generator and the session after
the last of them, and a snapshot then. -/
structure Playthrough (σ γ : Type) where
  answers : List Response
  generator : γ
  session : Session σ
  final : Snapshot

/-- Plays a game with a generator. -/
def run (source : Source γ ε) (i : Interpreter σ) (fuel steps : Nat) (g : γ) (s : Session σ) :
    Except (PlayError ε) (Playthrough σ γ) :=
  match Game.play source i fuel steps g s with
  | none => .error .endless
  | some game =>
      match game.answers, Interpreter.snapshot game.session with
      | .error f, _ => .error (.fault f)
      | _, .error f => .error (.fault f)
      | .ok answers, .ok final => .ok ⟨answers, game.generator, game.session, final⟩

/-- The integer that a value is; truth values count as zero and one. -/
def integer? : Value → Option Int
  | .int n => some n
  | .bool b => some (if b then 1 else 0)
  | _ => none

/-- Plays a game whose number of steps and seed are given as values. A number of steps below zero
asks for none; that it is no number is found out after the game has been started. -/
def runFor (source : Source γ ε) (i : Interpreter σ) (fuel : Nat) (steps seed : Value)
    (s : Session σ) : Except (PlayError ε) (Playthrough σ γ) := do
  let g ← (source.ofSeed seed).mapError .seed
  match integer? steps with
  | some n => run source i fuel n.toNat g s
  | none => do
      let _ ← run source i fuel 0 g s
      throw (.notACount steps.kindName)

end TokenGate.Random
