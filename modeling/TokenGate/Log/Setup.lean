import TokenGate.Log
import TokenGate.Value.Text

/-!
# Log levels

A level may be given as a number or by its name. It is set for all parts of the program alike, and
records below it are not shown.
-/

namespace TokenGate.Logging

/-- The name under which the program as a whole reports. -/
def rootName : String := "token_automaton"

/-- The names that a level is set for. -/
def loggers : List String := ["automaton", "core", "rules", "agents", rootName]

/-- The numbers that the names of levels stand for. -/
def levelNumbers : List (String × Int) :=
  [("DEBUG", Level.debug.number), ("INFO", Level.info.number),
    ("WARNING", Level.warning.number), ("WARN", Level.warning.number),
    ("ERROR", Level.error.number), ("CRITICAL", Level.critical.number),
    ("FATAL", Level.critical.number), ("NOTSET", 0)]

/-- The level where none is said. -/
def usualLevel : Int := Level.info.number

/-- What is no level. -/
inductive LevelError where
  | unknownName (name : String)
  /-- The value is neither a number nor a name; `written` is how it is written. -/
  | notALevel (written : String)
  deriving DecidableEq, Repr

/-- The text of a level error. -/
def LevelError.message : LevelError → String
  | unknownName name => "Unknown level: " ++ Text.quoted name
  | notALevel written => "Level not an integer or a valid string: " ++ written

/-- The level that a value says. -/
def levelOf : Value → Except LevelError Int
  | .int n => .ok n
  | .bool b => .ok (if b then 1 else 0)
  | .str name =>
      match Entries.get? name levelNumbers with
      | some n => .ok n
      | none => .error (.unknownName name)
  | v => .error (.notALevel v.written)

/-- The level that a name means once it is spelled in capitals, as `upper` does it. A name that means
nothing stands for the usual level. -/
def levelNamed (upper : String → String) (name : String) : Int :=
  (Entries.get? (upper name) levelNumbers).getD usualLevel

/-- The number from which on records are shown at a level. Level zero sets none, and then warnings
and what is graver are shown. -/
def threshold (level : Int) : Int :=
  if level = 0 then Level.warning.number else level

/-- Whether a record is shown at a level. -/
def shows (level : Int) (r : Record) : Bool :=
  decide (threshold level ≤ (r.level.number : Int))

end TokenGate.Logging
