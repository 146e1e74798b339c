import TokenGate.Definition.Players

/-!
# Reading definitions

Rules and definitions are read from data. Each field is checked on its own, and the problems of
all fields are reported together, in the order in which the fields are declared here, followed by
the keys that no field has. That no two rules of a kind share a name is checked last, and only if
nothing else is wrong.
-/

namespace TokenGate

/-- A result, or all the problems that stand in its way. -/
inductive Checked (π α : Type) where
  | valid (result : α)
  | invalid (problems : List π)

namespace Checked

variable {π ρ α β : Type}

/-- Applies a function to the result. -/
def map (f : α → β) : Checked π α → Checked π β
  | valid a => valid (f a)
  | invalid ps => invalid ps

/-- Applies a checked function to a checked argument; problems of both are kept. -/
def seq (f : Checked π (α → β)) (x : Checked π α) : Checked π β :=
  match f, x with
  | valid f, x => x.map f
  | invalid ps, valid _ => invalid ps
  | invalid ps, invalid qs => invalid (ps ++ qs)

instance : Applicative (Checked π) where
  pure := valid
  map := map
  seq f x := f.seq (x ())

/-- Adds problems after those of a check. -/
def withProblems (x : Checked π α) (problems : List π) : Checked π α :=
  match problems, x with
  | [], x => x
  | ps, valid _ => invalid ps
  | ps, invalid qs => invalid (qs ++ ps)

/-- Rewrites the list of problems. -/
def mapProblems (f : List π → List ρ) : Checked π α → Checked ρ α
  | valid a => valid a
  | invalid ps => invalid (f ps)

/-- The results of a list of checks, if there are no problems. -/
def sequence : List (Checked π α) → Checked π (List α)
  | [] => valid []
  | x :: rest => List.cons <$> x <*> sequence rest

/-- The result, or a report on the problems. -/
def orReport {ε : Type} (report : List π → ε) : Checked π α → Except ε α
  | valid a => .ok a
  | invalid ps => .error (report ps)

end Checked

/-- The check of one value, relative to the place of the value. -/
abbrev Check (α : Type) := Value → Checked Problem α

/-- A single problem at a place. -/
def refuse {α : Type} (place : List String) (c : Complaint) : Checked Problem α :=
  .invalid [⟨place, c⟩]

namespace Field

variable {α : Type}

/-- Puts the key of a field before the places of its problems. -/
def under (key : String) (x : Checked Problem α) : Checked Problem α :=
  x.mapProblems fun ps => ps.map fun p => ⟨key :: p.place, p.complaint⟩

/-- A field that must be there. -/
def required (fields : Fields) (key : String) (check : Check α) : Checked Problem α :=
  match Entries.get? key fields with
  | some v => under key (check v)
  | none => refuse [key] .missing

/-- A field that has a value where it is absent. -/
def optional (fields : Fields) (key : String) (value : α) (check : Check α) : Checked Problem α :=
  match Entries.get? key fields with
  | some v => under key (check v)
  | none => .valid value

/-- The complaints about keys that no field has, in order. -/
def unknown (known : List String) (fields : Fields) : List Problem :=
  ((Entries.keys fields).filter (· ∉ known)).map fun key => ⟨[key], .unknownKey⟩

/-- A name: a text with a letter or digit in it. Blanks at its ends do not belong to it. -/
def name (owner : String) : Check String := fun v =>
  match v with
  | .str s =>
      if (Text.strip s).isEmpty then refuse [] (.name owner .blank)
      else if s.toList.any Text.isLetterOrDigit then .valid (Text.strip s)
      else refuse [] (.name owner (.noLetterOrDigit s))
  | _ => refuse [] (.name owner .blank)

/-- A text, or nothing. -/
def text : Check (Option String)
  | .null => .valid none
  | .str s => .valid (some s)
  | _ => refuse [] .notText

/-- A list of tokens. -/
def tokens : Check TokenBag := fun v =>
  match TokenBag.parse v with
  | .ok b => .valid b
  | .error e => refuse [] (.tokens e)

/-- A condition, given as a text. -/
def conditionText (s : String) : Checked Problem Condition :=
  match Condition.compile s with
  | .ok c => .valid c
  | .error e => refuse [] (.condition e)

/-- A condition, or nothing. -/
def condition : Check (Option Condition)
  | .null => .valid none
  | .str s => (conditionText s).map some
  | _ => refuse [] .notText

/-- A gate: a condition, or else the predicate of the surroundings that the fields name. -/
def gate (external : Option String) : Check Gate := fun v =>
  match v with
  | .str s => (conditionText s).map .condition
  | _ =>
      match external with
      | some key => .valid (.external key)
      | none => .invalid [⟨["str"], .notText⟩, ⟨["callable"], .notPredicate⟩]

/-- The fields of an object. -/
def object : Check Fields
  | .object fields => .valid fields
  | _ => refuse [] .notObject

/-- A number of players; `integer?` gives the integers that texts write. -/
def players (integer? : String → Option Int) : Check Nat := fun v =>
  match Players.ofValue integer? v with
  | .ok n => .valid n
  | .error c => refuse [] c

end Field

/-- What a reader knows besides the data. -/
structure Reader where
  /-- Whether the condition in a constraint's fields is a predicate of the surroundings, and under
  which key. -/
  external : Fields → Option String
  /-- The integer that a text writes. -/
  integer? : String → Option Int

/-- A reader of mere data, in which there are no predicates. -/
def Reader.data (integer? : String → Option Int) : Reader := ⟨fun _ => none, integer?⟩

@[simp] theorem Reader.integer?_data (integer? : String → Option Int) :
    (data integer?).integer? = integer? := rfl

namespace Trigger

/-- The keys of a trigger. -/
def keys : List String := ["event", "condition", "action", "grants"]

/-- Reads a trigger from its fields. -/
def ofFields (fs : Fields) : Checked Problem Trigger :=
  (Trigger.mk
    <$> Field.required fs "event" (Field.name "Trigger event")
    <*> Field.optional fs "condition" none Field.condition
    <*> Field.optional fs "action" none Field.text
    <*> Field.optional fs "grants" .empty Field.tokens
  ).withProblems (Field.unknown keys fs)

end Trigger

namespace Action

/-- The keys of an action. -/
def keys : List String := ["name", "effect", "when", "costs"]

/-- Reads an action from its fields. -/
def ofFields (fs : Fields) : Checked Problem Action :=
  (Action.mk
    <$> Field.required fs "name" (Field.name "Action name")
    <*> Field.optional fs "effect" none Field.text
    <*> Field.optional fs "when" none Field.text
    <*> Field.optional fs "costs" .empty Field.tokens
  ).withProblems (Field.unknown keys fs)

end Action

namespace Constraint

/-- The keys of a constraint. -/
def keys : List String := ["name", "condition", "message", "bypass_cost"]

/-- Reads a constraint from its fields. -/
def ofFields (reader : Reader) (fs : Fields) : Checked Problem Constraint :=
  (Constraint.mk
    <$> Field.required fs "name" (Field.name "Constraint name")
    <*> Field.required fs "condition" (Field.gate (reader.external fs))
    <*> Field.optional fs "message" none Field.text
    <*> Field.optional fs "bypass_cost" .empty Field.tokens
  ).withProblems (Field.unknown keys fs)

end Constraint

/-- Reads a rule of some kind from its fields. -/
def Rule.ofFields (reader : Reader) (kind : RuleKind) (fs : Fields) : Checked Problem Rule :=
  match kind with
  | .trigger => (Trigger.ofFields fs).map .trigger
  | .action => (Action.ofFields fs).map .action
  | .constraint => (Constraint.ofFields reader fs).map .constraint

/-- Reads a rule of some kind from data. -/
def Rule.ofValue (reader : Reader) (kind : RuleKind) (v : Value) : Except Malformed Rule :=
  match v with
  | .object fs => (Rule.ofFields reader kind fs).orReport (.rule kind)
  | v => .error (.notAnObject kind.title v.kindName)

namespace Definition

/-- The keys of a definition. -/
def keys : List String :=
  ["name", "players", "initial_state", "triggers", "actions", "constraints"]

/-- A check whose problems are the definition's own. -/
def own {α : Type} (x : Checked Problem α) : Checked DefinitionProblem α :=
  x.mapProblems fun ps => ps.map .own

/-- The rule at one position of a list. -/
def readRule {α : Type} (kind : RuleKind) (read : Fields → Checked Problem α) (key : String)
    (v : Value) (position : Nat) : Checked DefinitionProblem α :=
  let place := [key, toString position]
  match v with
  | .object fs => (read fs).mapProblems fun ps => [.rule place kind ps]
  | _ => own (refuse place (.notRule kind))

/-- The rules under a key; none where it is absent. -/
def readRules {α : Type} (kind : RuleKind) (read : Fields → Checked Problem α) (key : String)
    (fs : Fields) : Checked DefinitionProblem (List α) :=
  match Entries.get? key fs with
  | none => .valid []
  | some (.list items) =>
      Checked.sequence (items.zipIdx.map fun (v, i) => readRule kind read key v i)
  | some _ => own (refuse [key] .notList)

/-- The names that occur more than once, in alphabetical order. -/
def duplicates (names : List String) : List String :=
  (names.eraseDups.filter fun n => 1 < names.count n).mergeSort fun a b => a ≤ b

/-- The complaint about names that two rules of a kind share, for the first such kind. -/
def duplicateNames (d : Definition) : Option Complaint :=
  let names (kind : RuleKind) : List String :=
    duplicates ((d.rules.filter (·.kind = kind)).map Rule.name)
  ([.trigger, .action, .constraint].find? fun kind => !(names kind).isEmpty).map fun kind =>
    .duplicates kind (names kind)

/-- Reads a definition from its fields. -/
def ofFields (reader : Reader) (fs : Fields) : Checked DefinitionProblem Definition :=
  let read : Checked DefinitionProblem Definition :=
    (Definition.mk
      <$> own (Field.required fs "name" (Field.name "Rule definition name"))
      <*> own (Field.optional fs "players" Players.default (Field.players reader.integer?))
      <*> own (Field.optional fs "initial_state" [] Field.object)
      <*> readRules .trigger Trigger.ofFields "triggers" fs
      <*> readRules .action Action.ofFields "actions" fs
      <*> readRules .constraint (Constraint.ofFields reader) "constraints" fs
    ).withProblems ((Field.unknown keys fs).map .own)
  match read with
  | .invalid ps => .invalid ps
  | .valid d =>
      match d.duplicateNames with
      | some c => own (refuse [] c)
      | none => .valid d

/-- Reads a definition from data. -/
def ofValue (reader : Reader) (v : Value) : Except Malformed Definition :=
  match v with
  | .object fs => (ofFields reader fs).orReport .definition
  | v => .error (.notAnObject definitionTitle v.kindName)

end Definition
end TokenGate
