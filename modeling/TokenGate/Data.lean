import TokenGate.Value.Order

/-!
# Shared data

The data that events carry into a game, and that of the game itself. Whoever holds a list or the
data of a game holds the same one as all others who do: a list that comes with an event can be
stored in a game, and an effect that later removes an item from it there removes it from the event
as well; and an event may carry a list of the game, or all the data of the game, and shows what
becomes of it. So every list has a mark that tells it from other lists, and the data of a game is
known by the number of the game. What is done to them is recorded as edits. No other object is ever
written to.

`Data.read` gives the value that data has after the edits so far. Data that holds itself, as it has
been stored in itself, would have a value without end; it is read no deeper than there are edits.
-/

namespace TokenGate

/-- What tells a list from others. -/
inductive Mark where
  /-- The list came with an event. -/
  | sent (n : Nat)
  /-- The list is one of those that a game began with. -/
  | own (game n : Nat)
  /-- The list is a copy that was made for a snapshot. -/
  | copied (snapshot : Nat) (original : Mark)
  deriving DecidableEq

/-- The game that began with the list, if one did. -/
def Mark.game? : Mark → Option Nat
  | own game _ => some game
  | _ => none

/-- A piece of data that may have several holders. -/
inductive Data where
  | null
  | bool (b : Bool)
  | int (n : Int)
  | float (x : Number.Double)
  | str (s : String)
  | list (mark : Mark) (items : List Data)
  | object (fields : List (String × Data))
  /-- The data of a game, which began with these fields. -/
  | game (number : Nat) (fields : List (String × Data))
  deriving Inhabited

/-- What is done to data, for all who hold it. -/
inductive Edit where
  /-- The item at a position of a list is struck. -/
  | strike (mark : Mark) (position : Nat)
  /-- An entry of the data of a game is set. -/
  | put (game : Nat) (key : String) (data : Data)

/-- The game that an edit is made to: to its data, or to a list with which it began. -/
def Edit.game? : Edit → Option Nat
  | strike mark _ => mark.game?
  | put game _ _ => some game

/-- What has been done to data, oldest first. -/
abbrev Edits := List Edit

/-- What edits come to: which positions of lists are struck, and what has been set in the data of
games. -/
structure View where
  struck : Mark → Nat → Bool
  stored : Nat → List (String × Data)

namespace Data

mutual

/-- Data as it was made, whatever has been done to it since. -/
def value : Data → Value
  | null => .null
  | bool b => .bool b
  | int n => .int n
  | float x => .float x
  | str t => .str t
  | list _ items => .list (valueOfItems items)
  | object fields => .object (valueOfFields fields)
  | game _ fields => .object (valueOfFields fields)

/-- The items of a list as they were made. -/
def valueOfItems : List Data → List Value
  | [] => []
  | d :: rest => value d :: valueOfItems rest

/-- The fields of an object as they were made. -/
def valueOfFields : List (String × Data) → Fields
  | [] => []
  | (k, d) :: rest => (k, value d) :: valueOfFields rest

end

mutual

/-- The value of data as it is viewed. -/
def read (v : View) : Data → Value
  | null => .null
  | bool b => .bool b
  | int n => .int n
  | float x => .float x
  | str t => .str t
  | list mark items => .list (readItems v mark 0 items)
  | object fields => .object (readFields v fields)
  | game n fields => .object (Entries.putAll (valueOfFields (v.stored n)) (readFields v fields))

/-- The values of the items of a list from a position on, without those that are struck. -/
def readItems (v : View) (mark : Mark) (position : Nat) : List Data → List Value
  | [] => []
  | d :: rest =>
      if v.struck mark position then readItems v mark (position + 1) rest
      else read v d :: readItems v mark (position + 1) rest

/-- The values of the fields of an object. -/
def readFields (v : View) : List (String × Data) → Fields
  | [] => []
  | (k, d) :: rest => (k, read v d) :: readFields v rest

end

mutual

/-- Data as it is viewed, with all edits made. -/
def present (v : View) : Data → Data
  | list mark items => list mark (presentItems v mark 0 items)
  | object fields => object (presentFields v fields)
  | game n fields => object (Entries.putAll (v.stored n) (presentFields v fields))
  | d => d

/-- The items of a list from a position on, without those that are struck. -/
def presentItems (v : View) (mark : Mark) (position : Nat) : List Data → List Data
  | [] => []
  | d :: rest =>
      if v.struck mark position then presentItems v mark (position + 1) rest
      else present v d :: presentItems v mark (position + 1) rest

/-- The fields of an object. -/
def presentFields (v : View) : List (String × Data) → List (String × Data)
  | [] => []
  | (k, d) :: rest => (k, present v d) :: presentFields v rest

end

mutual

/-- Data with all lists being other ones. -/
def recast (f : Mark → Mark) : Data → Data
  | list mark items => list (f mark) (recastItems f items)
  | object fields => object (recastFields f fields)
  | game n fields => game n (recastFields f fields)
  | d => d

/-- The items of a list with all lists in them being other ones. -/
def recastItems (f : Mark → Mark) : List Data → List Data
  | [] => []
  | d :: rest => recast f d :: recastItems f rest

/-- The fields of an object with all lists in them being other ones. -/
def recastFields (f : Mark → Mark) : List (String × Data) → List (String × Data)
  | [] => []
  | (k, d) :: rest => (k, recast f d) :: recastFields f rest

end

mutual

/-- A value as data, its lists marked with numbers from `next` on. The first number that is not used
is handed on. -/
def mint (mark : Nat → Mark) (next : Nat) : Value → Data × Nat
  | .null => (null, next)
  | .bool b => (bool b, next)
  | .int n => (int n, next)
  | .float x => (float x, next)
  | .str t => (str t, next)
  | .list items =>
      let (ds, after) := mintItems mark (next + 1) items
      (list (mark next) ds, after)
  | .object fields =>
      let (ds, after) := mintFields mark next fields
      (object ds, after)

/-- The items of a list as data. -/
def mintItems (mark : Nat → Mark) (next : Nat) : List Value → List Data × Nat
  | [] => ([], next)
  | v :: rest =>
      let (d, next) := mint mark next v
      let (ds, next) := mintItems mark next rest
      (d :: ds, next)

/-- The fields of an object as data. -/
def mintFields (mark : Nat → Mark) (next : Nat) :
    List (String × Value) → List (String × Data) × Nat
  | [] => ([], next)
  | (k, v) :: rest =>
      let (d, next) := mint mark next v
      let (ds, next) := mintFields mark next rest
      ((k, d) :: ds, next)

end

/-- A value as data that comes with an event, its lists numbered from `next` on. -/
def share (next : Nat) (v : Value) : Data × Nat := mint .sent next v

/-- The fields with which a game begins, all of them its own. -/
def ownFields (game : Nat) (fields : Fields) : List (String × Data) :=
  (mintFields (.own game) 0 fields).1

/-- What is stored under a key of an object; null where there is nothing. -/
def field (fields : List (String × Data)) (key : String) : Data :=
  (Entries.get? key fields).getD null

/-- The position of the first item that is not struck and has a given value. -/
def position? (v : View) (mark : Mark) (x : Value) (position : Nat) : List Data → Option Nat
  | [] => none
  | d :: rest =>
      if !v.struck mark position && (d.read v).same x then some position
      else position? v mark x (position + 1) rest

end Data

namespace Edits

/-- Whether an item of a list has been struck. -/
def struck (s : Edits) (mark : Mark) (position : Nat) : Bool :=
  s.any fun
    | .strike m p => m = mark && p = position
    | .put .. => false

/-- What has been set in the data of a game, in order. -/
def stored (s : Edits) (game : Nat) : List (String × Data) :=
  s.filterMap fun
    | .strike .. => none
    | .put n key d => if n = game then some (key, d) else none

/-- What edits come to, where data that has been stored is viewed in turn, so many times. -/
def viewTo (s : Edits) : Nat → View
  | 0 => ⟨s.struck, fun _ => []⟩
  | depth + 1 => ⟨s.struck, fun n => Entries.mapValues (Data.present (viewTo s depth)) (s.stored n)⟩

/-- What edits come to. -/
def view (s : Edits) : View := s.viewTo s.length

/-- The data of a game that began with some fields, with what has been set in it. -/
def entries (s : Edits) (game : Nat) (fields : List (String × Data)) : List (String × Data) :=
  Entries.putAll (s.stored game) fields

/-- The entries of data that has such. -/
def entries? (s : Edits) : Data → Option (List (String × Data))
  | .object fields => some fields
  | .game n fields => some (s.entries n fields)
  | _ => none

end Edits
end TokenGate
