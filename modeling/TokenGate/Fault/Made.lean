import TokenGate.Automaton.Catalog
import TokenGate.Fault
import TokenGate.Repository
import TokenGate.Value.Members

/-!
# Errors made from arguments

An error may be made by hand, by the name of its kind and with arguments of any sort. Some kinds
need certain arguments and carry them along; the text of all others is that of their arguments.
-/

namespace TokenGate

/-- An error that has been made: its text, and what it carries. -/
structure MadeError where
  message : String
  carried : Fields

/-- Why an error cannot be made. -/
inductive MakingError where
  /-- The kind of error takes another number of arguments. -/
  | wrongCount (kind text : String)
  | member (e : MemberError)

/-- The text about an error that cannot be made. -/
def MakingError.message : MakingError → String
  | wrongCount kind text => kind ++ ".__init__() " ++ text
  | member e => e.message

namespace MadeError

/-- The kinds that are above all others. -/
def topKinds : List String := ["Exception", "BaseException", "object"]

/-- The kinds that an error of a kind belongs to, its own first and the most general last. -/
def kinds (kind : String) : List String :=
  let ofRules := ["RuleDefinitionError", "ValueError"]
  let above := match kind with
    | "InsufficientResourcesError" | "ConstraintBlockedError" => ["GameRuleViolation"]
    | "RuleDefinitionError" => ["ValueError"]
    | "MalformedRuleError" | "EventNameCollisionError" => ofRules
    | "ConditionSyntaxError" => "MalformedRuleError" :: ofRules
    | "EffectExecutionError" => ["RuntimeError"]
    | "RuleNotFoundError" => ["KeyError", "LookupError"]
    | "KeyError" => ["LookupError"]
    | _ => []
  kind :: above ++ topKinds

/-- The arguments that a kind of error cannot do without. -/
def needed : String → List String
  | "GameRuleViolation" => ["message"]
  | "InsufficientResourcesError" => ["shortfall"]
  | "ConstraintBlockedError" => ["constraint"]
  | "ConditionSyntaxError" => ["expression", "reason"]
  | "EventNameCollisionError" => ["event_name", "sources"]
  | "RuleNotFoundError" => ["name"]
  | _ => []

/-- What is wrong with a number of arguments for a kind of error. -/
def wrongCount? (kind : String) (given : Nat) : Option String :=
  let names := needed kind
  let missing := names.drop given
  let optional := if kind = "ConstraintBlockedError" then 1 else 0
  let most := names.length + optional + 1
  if !missing.isEmpty then
    some ("missing " ++ toString missing.length ++ " required positional argument" ++
      (if missing.length = 1 then "" else "s") ++ ": " ++
      " and ".intercalate (missing.map Text.quoted))
  else if !names.isEmpty && most ≤ given then
    some ("takes " ++ (if optional = 0 then toString most else "from 2 to 3") ++
      " positional arguments but " ++ toString (given + 1) ++ " were given")
  else none

/-- The code and the message that a violation of the rules carries, where `details` do not say
otherwise. -/
def code (details : Fields) (usual : String) (message : Value) : Fields :=
  let code := (Entries.get? "code" details).getD (.str usual)
  let message := (Entries.get? "message" details).getD message
  [("code", code), ("details", .list [code, message])]

/-- An argument as it is carried: an object as the list of its pairs. -/
def carry (name : String) : Value → String × Value
  | .object fields => (name, .list (fields.map fun (k, v) => .list [.str k, v]))
  | v => (name, v)

/-- The text of an error without needs. -/
def textOf (kind : String) : List Value → String
  | [] => ""
  | [v] => if kind = "KeyError" then v.written else v.shown
  | vs => "(" ++ ", ".intercalate (vs.map Value.written) ++ ")"

/-- Makes an error from as many arguments as it takes. -/
def build (kind : String) (args : List Value) (details : Fields) : Except MemberError MadeError := do
  let arg (n : Nat) : Value := args.getD n .null
  let first := (arg 0).shown
  match kind with
  | "GameRuleViolation" => return ⟨first, code details "ERR_RULE_VIOLATION" (arg 0)⟩
  | "InsufficientResourcesError" =>
      let lack ← (arg 0).pairs
      let message := missingText (lack.map fun (t, v) => (t.shown, v.shown))
      return ⟨message, code details "ERR_INSUFFICIENT_RESOURCES" (.str message) ++
        [("shortfall", .list (lack.map fun (t, v) => .list [t, v]))]⟩
  | "ConstraintBlockedError" =>
      let message := if (arg 1).truth then arg 1 else .str (blockedText first none)
      return ⟨message.shown, code details "ERR_CONSTRAINT_BLOCKED" message ++
        [carry "constraint" (arg 0)]⟩
  | "ConditionSyntaxError" =>
      return ⟨Condition.invalidText (arg 0).written (arg 1).shown,
        [carry "expression" (arg 0), carry "reason" (arg 1)]⟩
  | "EventNameCollisionError" =>
      let sources ← (arg 1).texts
      return ⟨collisionText first sources,
        [carry "event_name" (arg 0), ("sources", .list (sources.map .str))]⟩
  | "RuleNotFoundError" =>
      return ⟨Text.quoted (unknownNameText first), [carry "name" (arg 0)]⟩
  | _ => return ⟨textOf kind args, []⟩

/-- Makes an error of a kind. -/
def make (kind : String) (args : List Value) (details : Fields) : Except MakingError MadeError :=
  match wrongCount? kind args.length with
  | some text => .error (.wrongCount kind text)
  | none => (build kind args details).mapError .member

end MadeError
end TokenGate
