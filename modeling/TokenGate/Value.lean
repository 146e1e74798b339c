import TokenGate.Number.Double
import TokenGate.Table

/-!
# Data values

The data that rule files, events and game states are made of: null, truth values, integers of any
size, doubles, texts, lists, and objects with their fields in order. Integers and doubles stay
apart even when they are equal as numbers.
-/

namespace TokenGate

open Number

/-- A piece of data. -/
inductive Value where
  | null
  | bool (b : Bool)
  | int (n : Int)
  | float (x : Double)
  | str (s : String)
  | list (items : List Value)
  | object (fields : List (String × Value))
  deriving Inhabited

/-- The fields of an object, in order. -/
abbrev Fields := List (String × Value)

/-- What cannot be looked up as a key; `kind` is what it is. -/
structure NotAKey where
  kind : String
  deriving DecidableEq, Repr

/-- The text about what is no key. -/
def NotAKey.message (e : NotAKey) : String := "unhashable type: '" ++ e.kind ++ "'"

namespace Value

/-- The name by which messages call the kind of a value. -/
def kindName : Value → String
  | null => "NoneType"
  | bool _ => "bool"
  | int _ => "int"
  | float _ => "float"
  | str _ => "str"
  | list _ => "list"
  | object _ => "dict"

/-- The fields of an object. -/
def fields? : Value → Option Fields
  | object fs => some fs
  | _ => none

/-- The text of a text value. -/
def str? : Value → Option String
  | str s => some s
  | _ => none

/-- What a value goes through member by member: the items of a list, the characters of a text, the
keys of an object. -/
def items? : Value → Option (List Value)
  | list items => some items
  | str s => some (s.toList.map fun c => str (String.ofList [c]))
  | object fs => some ((Entries.keys fs).map str)
  | _ => none

/-- The value under a key of an object; null where there is none. -/
def field (fs : Fields) (key : String) : Value := (Entries.get? key fs).getD null

/-- Whether a value can be looked up as a key. Lists and objects cannot. -/
def isKey : Value → Bool
  | list _ => false
  | object _ => false
  | _ => true

/-- The text that a value is as a key. Other keys than texts have none. -/
def asKey (v : Value) : Except NotAKey (Option String) :=
  if v.isKey then .ok v.str? else .error ⟨v.kindName⟩

/-- The position of a value on the number line, if it has one; truth values count as zero and
one. -/
def number? : Value → Option Extended
  | bool b => some (.finite (if b then 1 else 0))
  | int n => some (.finite n)
  | float x => x.extended?
  | _ => none

end Value
end TokenGate
