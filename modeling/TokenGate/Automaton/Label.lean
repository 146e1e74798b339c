import TokenGate.Rule

/-!
# Labels of generated events

Every rule and every token gives rise to events. The label of such an event is the word for its
kind followed by the name it comes from in normal form: in upper case, with every run of other
characters than ASCII letters and digits replaced by one underscore, and none at the ends.
-/

namespace TokenGate

/-- The kinds of generated events: one for each kind of rule, and two for every token. -/
inductive EventKind where
  | trigger
  | action
  | constraint
  | spend
  | gain
  deriving DecidableEq, Repr

namespace EventKind

/-- All kinds, in order. -/
def all : List EventKind := [trigger, action, constraint, spend, gain]

/-- The word that the labels of a kind begin with. -/
def text : EventKind → String
  | trigger => "TRIGGER"
  | action => "ACTION"
  | constraint => "CONSTRAINT"
  | spend => "SPEND"
  | gain => "GAIN"

/-- The kind as the first word of a message. -/
def title : EventKind → String
  | trigger => "Trigger"
  | action => "Action"
  | constraint => "Constraint"
  | spend => "Spend"
  | gain => "Gain"

/-- The kind of the events of a kind of rules. -/
def ofRule : RuleKind → EventKind
  | .trigger => trigger
  | .action => action
  | .constraint => constraint

end EventKind

/-- Replaces every run of other characters than letters and digits by one underscore; `gap` says
whether such a run has begun. -/
def joinRuns (gap : Bool) : List Char → List Char
  | [] => []
  | c :: rest =>
      if Text.isLetterOrDigit c then c :: joinRuns false rest
      else if gap then joinRuns true rest
      else '_' :: joinRuns true rest

/-- The normal form of a name, as characters. -/
def normalChars (cs : List Char) : List Char :=
  (Text.trimChars (· == '_') (joinRuns false cs)).map Char.toUpper

/-- A name that has no normal form, as it holds neither a letter nor a digit. -/
structure LabelError where
  source : String

/-- The text of a label error. -/
def LabelError.message (e : LabelError) : String :=
  "Name " ++ Text.quoted e.source ++ " does not contain any identifier characters"

/-- The normal form of a name. -/
def normalize (source : String) : Except LabelError String :=
  match normalChars source.toList with
  | [] => .error ⟨source⟩
  | cs => .ok (String.ofList cs)

/-- A generated event: its kind and the name it comes from. -/
structure EventName where
  kind : EventKind
  source : String
  deriving DecidableEq, Repr

/-- The label of a generated event. -/
def EventName.label (n : EventName) : Except LabelError String :=
  (normalize n.source).map fun s => n.kind.text ++ "_" ++ s

end TokenGate
