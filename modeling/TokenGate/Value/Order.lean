import TokenGate.Value

/-!
# Truth, equality and order of values

Null, false, the zeros and everything empty are false, all else is true. Truth values and numbers
are equal when their exact values are; texts, lists and objects are equal by content, objects
whatever the order of their fields. Numbers are ordered by value, texts by their characters, and
lists by the first pair of unequal items, then by length; no other two values have an order. The
double that is no number is equal to nothing, but it is one and the same wherever it is held.
-/

namespace TokenGate

open Number

namespace Value

/-- Whether a value counts as true. -/
def truth : Value → Bool
  | null => false
  | bool b => b
  | int n => n != 0
  | float x => !x.isZero
  | str s => s != ""
  | list items => !items.isEmpty
  | object fields => !fields.isEmpty

/-- Whether a value is the double that is no number. -/
def isNaN : Value → Bool
  | float x => x.isNaN
  | _ => false

mutual

/-- Equality of values. -/
def equal : Value → Value → Bool
  | null, w => match w with
      | null => true
      | _ => false
  | bool b, w => w.number? == some (.finite (if b then 1 else 0))
  | int n, w => w.number? == some (.finite n)
  | float x, w => match x.extended? with
      | some p => w.number? == some p
      | none => false
  | str s, w => w.str? == some s
  | list items, w => match w with
      | list others => equalItems items others
      | _ => false
  | object fields, w => match w with
      | object others => fields.length == others.length && equalFields fields others
      | _ => false

/-- Whether lists hold the same, item by item. -/
def equalItems : List Value → List Value → Bool
  | [], others => others.isEmpty
  | v :: rest, others => match others with
      | [] => false
      | w :: others => (equal v w || v.isNaN && w.isNaN) && equalItems rest others

/-- Whether every field of the first list holds the same as the one under its key in the second. -/
def equalFields : List (String × Value) → List (String × Value) → Bool
  | [], _ => true
  | (k, v) :: rest, others =>
      (match Entries.get? k others with
        | some w => equal v w || v.isNaN && w.isNaN
        | none => false) && equalFields rest others

end

/-- Whether two values are the same to what holds them. -/
def same (v w : Value) : Bool := v.equal w || v.isNaN && w.isNaN

/-- The order of two numbers. -/
def orderNumbers (p q : Extended) : Ordering :=
  if p.lt q then .lt else if q.lt p then .gt else .eq

/-- The order of two texts, by the codes of their characters. -/
def orderTexts (s t : String) : Ordering :=
  if s < t then .lt else if t < s then .gt else .eq

mutual

/-- The order of two values, where they have one. -/
def order? : Value → Value → Option Ordering
  | null, _ => none
  | bool b, w => w.number?.map (orderNumbers (.finite (if b then 1 else 0)))
  | int n, w => w.number?.map (orderNumbers (.finite n))
  | float x, w => x.extended?.bind fun p => w.number?.map (orderNumbers p)
  | str s, w => w.str?.map (orderTexts s)
  | list items, w => match w with
      | list others => orderItems items others
      | _ => none
  | object _, _ => none

/-- The order of two lists: that of the first items that are not the same, or of their lengths. -/
def orderItems : List Value → List Value → Option Ordering
  | [], others => some (if others.isEmpty then .eq else .lt)
  | v :: rest, others => match others with
      | [] => some .gt
      | w :: others => if same v w then orderItems rest others else order? v w

end

end Value
end TokenGate
