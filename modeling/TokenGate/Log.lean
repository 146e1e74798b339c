/-!
# Log records

What the parts of the program report while they work: a level, a text, and the name of the part.
-/

namespace TokenGate

/-- How urgent a record is. -/
inductive Level where
  | debug
  | info
  | warning
  | error
  | critical
  deriving DecidableEq, Repr

namespace Level

/-- The name of a level. -/
def text : Level → String
  | debug => "DEBUG"
  | info => "INFO"
  | warning => "WARNING"
  | error => "ERROR"
  | critical => "CRITICAL"

/-- The number of a level. -/
def number : Level → Nat
  | debug => 10
  | info => 20
  | warning => 30
  | error => 40
  | critical => 50

end Level

/-- A log record. -/
structure Record where
  logger : String
  level : Level
  message : String
  deriving DecidableEq, Repr

end TokenGate
