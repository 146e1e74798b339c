import TokenGate.Value.Text

/-!
# Writing JSON

Compact JSON in ASCII: no blanks, characters outside the printable ASCII range as escapes of
their UTF-16 units, and the names that the reader knows for doubles without digits. The canonical
text of a value has the fields of every object in the order of their names, so that two values that
differ only in the order of fields have the same one.
-/

namespace TokenGate

open Number

namespace Json

/-- The escape of one UTF-16 unit. -/
def unitEscape (n : Nat) : List Char := '\\' :: 'u' :: Text.hex 4 n

/-- A character inside a JSON text. -/
def charText (c : Char) : List Char :=
  let n := c.toNat
  if c = '"' ∨ c = '\\' then ['\\', c]
  else if c = '\n' then ['\\', 'n']
  else if c = '\r' then ['\\', 'r']
  else if c = '\t' then ['\\', 't']
  else if n = 8 then ['\\', 'b']
  else if n = 12 then ['\\', 'f']
  else if 0x20 ≤ n ∧ n < 0x7F then [c]
  else if n < 0x10000 then unitEscape n
  else unitEscape (0xD800 + (n - 0x10000) / 0x400) ++ unitEscape (0xDC00 + (n - 0x10000) % 0x400)

/-- A text in JSON. -/
def stringText (s : String) : List Char := '"' :: (s.toList.flatMap charText ++ ['"'])

/-- Puts commas between texts. -/
def commaSeparated : List (List Char) → List Char
  | [] => []
  | [t] => t
  | t :: rest => t ++ ',' :: commaSeparated rest

mutual

/-- The characters of a value's JSON text. -/
def chars : Value → List Char
  | .null => ['n', 'u', 'l', 'l']
  | .bool b => if b then ['t', 'r', 'u', 'e'] else ['f', 'a', 'l', 's', 'e']
  | .int n => (toString n).toList
  | .float x => (x.text doubleLayout "Infinity" "NaN").toList
  | .str s => stringText s
  | .list items => '[' :: (commaSeparated (itemChars items) ++ [']'])
  | .object fields => '\x7b' :: (commaSeparated (fieldChars fields) ++ ['\x7d'])

/-- The JSON texts of the items of a list. -/
def itemChars : List Value → List (List Char)
  | [] => []
  | v :: rest => chars v :: itemChars rest

/-- The JSON texts of the fields of an object. -/
def fieldChars : List (String × Value) → List (List Char)
  | [] => []
  | (k, v) :: rest => (stringText k ++ ':' :: chars v) :: fieldChars rest

end

/-- The JSON text of a value, fields in their own order. -/
def render (v : Value) : String := String.ofList (chars v)

end Json

namespace Value

/-- Puts a field in its place among fields ordered by name. -/
def insertSorted (key : String) (value : Value) : Fields → Fields
  | [] => [(key, value)]
  | (k, v) :: rest =>
      if key < k then (key, value) :: (k, v) :: rest else (k, v) :: insertSorted key value rest

mutual

/-- A value with the fields of every object in it ordered by name. -/
def sorted : Value → Value
  | list items => list (sortedItems items)
  | object fields => object (sortedFields fields)
  | v => v

/-- The items of a list, each with its fields ordered. -/
def sortedItems : List Value → List Value
  | [] => []
  | v :: rest => sorted v :: sortedItems rest

/-- The fields of an object ordered by name, each value's fields ordered as well. -/
def sortedFields : List (String × Value) → Fields
  | [] => []
  | (k, v) :: rest => insertSorted k (sorted v) (sortedFields rest)

end

end Value

/-- The canonical JSON text of a value. -/
def Json.canonical (v : Value) : String := Json.render v.sorted

end TokenGate
