import TokenGate.Text.Digit
import TokenGate.Value.Text

/-!
# Seeds given as values

A seed may be given as a number, or as a list whose members are numbers, numerals, or again such
lists; their numbers follow one another. An object stands for the list of its keys. A numeral that
begins with `0x` is hexadecimal, all others are decimal.
-/

namespace TokenGate.Random

/-- Why a value is no seed. -/
inductive SeedError where
  /-- It is neither a number nor a list; `shown` is how it is shown. -/
  | notASeed (shown : String)
  /-- A number is below zero. -/
  | negative
  /-- A number is a double. -/
  | notAnInteger
  /-- A text does not begin as a numeral does. -/
  | unrecognized
  /-- A text begins as a numeral of some base does, but is none. -/
  | notANumeral (base : Nat) (text : String)
  /-- A member is neither a number nor a list; `kind` is what it is. -/
  | noLength (kind : String)
  deriving DecidableEq, Repr

/-- The text of a seed error. -/
def SeedError.message : SeedError → String
  | notASeed shown => "SeedSequence expects int or sequence of ints for entropy not " ++ shown
  | negative => "expected non-negative integer"
  | notAnInteger => "seed must be integer"
  | unrecognized => "unrecognized seed string"
  | notANumeral base text =>
      "invalid literal for int() with base " ++ toString base ++ ": " ++ Text.quoted text
  | noLength kind => "object of type '" ++ kind ++ "' has no len()"

namespace Seed

/-- The number of an integer that is not below zero. -/
def natural (n : Int) : Except SeedError Nat :=
  if 0 ≤ n then .ok n.toNat else .error .negative

/-- The number that a numeral writes. -/
def numeral (s : String) : Except SeedError Nat :=
  match s.toList with
  | '0' :: 'x' :: _ =>
      match Text.prefixedHex? s with
      | some n => .ok n
      | none => .error (.notANumeral 16 s)
  | c :: _ =>
      if c.isDigit then
        match Text.integer? s with
        | some n => natural n
        | none => .error (.notANumeral 10 s)
      else .error .unrecognized
  | [] => .error .unrecognized

mutual

/-- The numbers of a member of a seed. -/
def numbers : Value → Except SeedError (List Nat)
  | .bool b => .ok [if b then 1 else 0]
  | .int n => do return [← natural n]
  | .float _ => .error .notAnInteger
  | .str s => do return [← numeral s]
  | .list items => numbersOfItems items
  | .object fields => (Entries.keys fields).mapM numeral
  | .null => .error (.noLength Value.null.kindName)

/-- The numbers of the members of a seed. -/
def numbersOfItems : List Value → Except SeedError (List Nat)
  | [] => .ok []
  | v :: rest => do return (← numbers v) ++ (← numbersOfItems rest)

end

/-- The seed that a value gives. -/
def ofValue : Value → Except SeedError (List Nat)
  | .list items => numbersOfItems items
  | .int n => numbers (.int n)
  | .bool b => numbers (.bool b)
  | v => .error (.notASeed v.shown)

end Seed
end TokenGate.Random
