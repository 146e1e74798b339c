import TokenGate.Number.Shortest
import TokenGate.Text.Quoted
import TokenGate.Value

/-!
# Values in messages

How messages show a value: texts in quotes, lists in brackets, objects in braces with quoted
keys, and the constants by their names. `Value.shown` is the same except that a text stands for
itself.
-/

namespace TokenGate

open Number

/-- Doubles are written positionally from 0.0001 up to below 10 to the sixteenth, and with an
exponent of at least two digits outside. -/
def doubleLayout : Layout := ⟨-4, 16, 2⟩

namespace Value

mutual

/-- A value as messages write it. -/
def written : Value → String
  | null => "None"
  | bool b => if b then "True" else "False"
  | int n => toString n
  | float x => x.text doubleLayout "inf" "nan"
  | str s => Text.quoted s
  | list items => "[" ++ ", ".intercalate (writtenItems items) ++ "]"
  | object fields => "\x7b" ++ ", ".intercalate (writtenFields fields) ++ "\x7d"

/-- The items of a list as messages write them. -/
def writtenItems : List Value → List String
  | [] => []
  | v :: rest => written v :: writtenItems rest

/-- The fields of an object as messages write them. -/
def writtenFields : List (String × Value) → List String
  | [] => []
  | (k, v) :: rest => (Text.quoted k ++ ": " ++ written v) :: writtenFields rest

end

/-- A value put into the middle of a sentence: a text stands for itself. -/
def shown : Value → String
  | str s => s
  | v => written v

end Value

/-- The message about a value that lacks an operation, given the name of its kind. -/
def lacksText (kind operation : String) : String :=
  "'" ++ kind ++ "' object has no attribute '" ++ operation ++ "'"

end TokenGate
