import TokenGate.Rule

/-!
# Rule definitions

The rules of one game, with the number of its players and the data that it starts from.
-/

namespace TokenGate

/-- The description of one game. -/
structure Definition where
  name : String
  players : Nat
  /-- The data of the game when it starts. -/
  initial : Fields
  triggers : List Trigger
  actions : List Action
  constraints : List Constraint

namespace Definition

/-- All rules: triggers, then actions, then constraints. -/
def rules (d : Definition) : List Rule :=
  d.triggers.map .trigger ++ d.actions.map .action ++ d.constraints.map .constraint

/-- The distinct tokens that the rules mention, in order of first mention. -/
def tokenTypes (d : Definition) : List String :=
  (d.rules.flatMap fun r => r.tokens.types).foldl
    (fun seen t => if t ∈ seen then seen else seen ++ [t]) []

end Definition
end TokenGate
