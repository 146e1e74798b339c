import TokenGate.Condition
import TokenGate.Token.Bag

/-!
# Rules

The three kinds of rules. A trigger stands for something that happens in the game and grants its
tokens; an action is chosen by a player and costs tokens before its effect is applied; a
constraint blocks while its gate is true, unless its bypass cost is paid.
-/

namespace TokenGate

/-- The kinds of rules. -/
inductive RuleKind where
  | trigger
  | action
  | constraint
  deriving DecidableEq, Repr

/-- The name of a kind in messages. -/
def RuleKind.title : RuleKind → String
  | trigger => "Trigger"
  | action => "Action"
  | constraint => "Constraint"

/-- The kind with a name, if there is one. -/
def RuleKind.ofTitle? (title : String) : Option RuleKind :=
  [trigger, action, constraint].find? fun kind => kind.title == title

/-- A kind is found by its name. -/
@[simp] theorem RuleKind.ofTitle?_title (kind : RuleKind) : ofTitle? kind.title = some kind := by
  cases kind <;> decide

/-- The word for a kind inside a sentence. -/
def RuleKind.word : RuleKind → String
  | trigger => "trigger"
  | action => "action"
  | constraint => "constraint"

/-- A trigger. Its condition and its action describe it; they have no part in a game. -/
structure Trigger where
  event : String
  condition : Option Condition
  action : Option String
  grants : TokenBag

/-- An action. Its `timing` describes it and has no part in a game. -/
structure Action where
  name : String
  effect : Option String
  timing : Option String
  costs : TokenBag

/-- The name of the effect that an action applies: its own name unless it has a nonempty effect. -/
def Action.effectName (a : Action) : String :=
  match a.effect with
  | some e => if e = "" then a.name else e
  | none => a.name

/-- What decides whether a constraint blocks: a condition, or a predicate of the surroundings,
known here by a key. -/
inductive Gate where
  | condition (c : Condition)
  | external (key : String)

/-- A constraint. -/
structure Constraint where
  name : String
  gate : Gate
  message : Option String
  bypass : TokenBag

/-- A rule of any kind. -/
inductive Rule where
  | trigger (t : Trigger)
  | action (a : Action)
  | constraint (c : Constraint)

namespace Rule

/-- The kind of a rule. -/
def kind : Rule → RuleKind
  | trigger _ => .trigger
  | action _ => .action
  | constraint _ => .constraint

/-- The name of a rule; a trigger is named by its event. -/
def name : Rule → String
  | trigger t => t.event
  | action a => a.name
  | constraint c => c.name

/-- The tokens that a rule grants or takes. -/
def tokens : Rule → TokenBag
  | trigger t => t.grants
  | action a => a.costs
  | constraint c => c.bypass

end Rule
end TokenGate
