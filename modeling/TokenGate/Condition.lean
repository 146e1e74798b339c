import TokenGate.Condition.Grammar

/-!
# Conditions

A condition is kept as the text that was written and the expression compiled from it.
-/

namespace TokenGate

open Condition

/-- A compiled condition. -/
structure Condition where
  text : String
  expr : Expr
  deriving Inhabited

/-- A text that is no condition, and what is wrong with it. -/
structure ConditionError where
  text : String
  fault : Fault

namespace Condition

/-- The message about something that is no condition, for a given reason. -/
def invalidText (written reason : String) : String :=
  "Invalid condition " ++ written ++ ": " ++ reason

/-- Compiles a condition. -/
def compile (text : String) : Except ConditionError Condition :=
  match parse text with
  | .error fault => .error ⟨text, fault⟩
  | .ok expr => .ok ⟨text, expr⟩

/-- Compiles the condition that a value holds. -/
def ofValue : Value → Except ConditionError Condition
  | .str text => compile text
  | v => .error ⟨v.written, .notText⟩

/-- Whether a condition holds in a scope. -/
def holds (c : Condition) (s : Scope) : Bool := (c.expr.eval s).truth s.attributes

/-- Whether a condition holds in a scope, unless the evaluation comes to a path that fails. -/
def holds? (c : Condition) (s : Scope) : Except NoKeys Bool :=
  if c.expr.fails s then .error ⟨s.game.kindName⟩ else .ok (c.holds s)

end Condition

/-- The text of a condition error. -/
def ConditionError.message (e : ConditionError) : String :=
  Condition.invalidText (Text.quoted e.text) e.fault.reason

end TokenGate
