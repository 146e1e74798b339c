import TokenGate.Definition

/-!
# Problems of definitions

What can be wrong with the data of a rule or of a definition. Every problem has a place, the keys
and positions that lead to it, and all problems are reported together.
-/

namespace TokenGate

/-- What is wrong with a name. -/
inductive NameFault where
  | blank
  | noLetterOrDigit (name : String)

/-- What is wrong at one place of a rule or a definition. -/
inductive Complaint where
  | missing
  | unknownKey
  | notText
  | notObject
  | notList
  | notPredicate
  | notRule (kind : RuleKind)
  | name (owner : String) (fault : NameFault)
  | condition (e : ConditionError)
  | tokens (e : TokenError)
  /-- The number is below one. -/
  | tooSmall
  /-- The value is no number and no text. -/
  | notInteger
  /-- The text writes no integer. -/
  | notIntegerText
  /-- The number has a fractional part. -/
  | fractional
  /-- The number is infinite, or the double that is no number. -/
  | infinite
  /-- The double has no fractional part but lies outside the 64-bit integers. -/
  | outOfRange
  /-- Two rules of the kind have one of the names. -/
  | duplicates (kind : RuleKind) (names : List String)

/-- The text of a name fault; `owner` says whose name it is. -/
def NameFault.message (owner : String) : NameFault → String
  | blank => owner ++ " must not be empty"
  | noLetterOrDigit name => owner ++ " must contain a letter or digit: " ++ Text.quoted name

/-- What is said before the text of a problem that the rules of the game themselves raise. -/
def raised (text : String) : String := "Value error, " ++ text

/-- The text of a complaint. -/
def Complaint.message : Complaint → String
  | missing => "Field required"
  | unknownKey => "Extra inputs are not permitted"
  | notText => "Input should be a valid string"
  | notObject => "Input should be a valid dictionary"
  | notList => "Input should be a valid tuple"
  | notPredicate => "Input should be callable"
  | notRule kind => "Input should be a valid dictionary or instance of " ++ kind.title
  | name owner fault => raised (fault.message owner)
  | condition e => raised e.message
  | tokens e => raised e.message
  | tooSmall => "Input should be greater than or equal to 1"
  | notInteger => "Input should be a valid integer"
  | notIntegerText => "Input should be a valid integer, unable to parse string as an integer"
  | fractional => "Input should be a valid integer, got a number with a fractional part"
  | infinite => "Input should be a finite number"
  | outOfRange => "Unable to parse input string as an integer, exceeded maximum size"
  | duplicates kind names =>
      raised ("Duplicate " ++ kind.word ++ " names: " ++ ", ".intercalate names)

/-- A complaint and the place it is about. -/
structure Problem where
  place : List String
  complaint : Complaint

/-- A problem of a definition: one of its own, or the problems of the rule at a place. -/
inductive DefinitionProblem where
  | own (p : Problem)
  | rule (place : List String) (kind : RuleKind) (problems : List Problem)

/-- What can be wrong with the data of a rule or a definition as a whole. -/
inductive Malformed where
  | notAnObject (title : String) (kind : String)
  | rule (kind : RuleKind) (problems : List Problem)
  | definition (problems : List DefinitionProblem)

/-- A place in words; one that leaves no text, as an empty key does, counts as the whole. -/
def placeText (place : List String) : String :=
  let text := ".".intercalate place
  if text.isEmpty then "<root>" else text

/-- The text of a problem. -/
def Problem.message (p : Problem) : String := placeText p.place ++ ": " ++ p.complaint.message

/-- The text about something malformed, given the texts of its problems. -/
def malformedText (title : String) (problems : List String) : String :=
  title ++ " is malformed: " ++ "; ".intercalate problems

/-- The text of a definition's problem. -/
def DefinitionProblem.message : DefinitionProblem → String
  | own p => p.message
  | rule place kind problems =>
      placeText place ++ ": " ++ raised (malformedText kind.title (problems.map Problem.message))

/-- How messages call a definition. -/
def definitionTitle : String := "RuleDefinition"

/-- The text of a report. -/
def Malformed.message : Malformed → String
  | notAnObject title kind => title ++ " payload must be a mapping, got " ++ kind
  | rule kind problems => malformedText kind.title (problems.map Problem.message)
  | definition problems =>
      malformedText definitionTitle (problems.map DefinitionProblem.message)

end TokenGate
