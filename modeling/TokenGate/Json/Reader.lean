import TokenGate.Text.Digit
import TokenGate.Text.Hex
import TokenGate.Value

/-!
# Reading JSON

A reader of JSON text: one value with blanks around it and nothing after. Control characters must
be escaped, numbers have no leading zeros, and there are no trailing commas. A number without a
fraction and exponent is an integer. Of fields with the same name the last value counts, at the
place of the first. Beyond what JSON has, there are names for the doubles that no digits write.

Each step hands on the rest of the text. The depth of the calls is bounded by twice the number of
characters, which is the fuel that `read?` starts with.
-/

namespace TokenGate.Json

open Number

/-- The blanks between the parts of a JSON text. -/
def isGap (c : Char) : Bool := c == ' ' || c == '\t' || c == '\n' || c == '\r'

/-- The text from the first character on that is not a gap. -/
def skipGap (cs : List Char) : List Char := cs.dropWhile isGap

/-- The code that four hexadecimal digits write. -/
def hexCode? (a b c d : Char) : Option Nat := do
  let a ← Text.hexValue? a
  let b ← Text.hexValue? b
  let c ← Text.hexValue? c
  let d ← Text.hexValue? d
  return ((a * 16 + b) * 16 + c) * 16 + d

/-- The character that a letter after a backslash stands for. -/
def escaped? (c : Char) : Option Char :=
  match c with
  | '"' => some '"'
  | '\\' => some '\\'
  | '/' => some '/'
  | 'b' => some (Char.ofNat 8)
  | 'f' => some (Char.ofNat 12)
  | 'n' => some '\n'
  | 'r' => some '\r'
  | 't' => some '\t'
  | _ => none

/-- The code above U+FFFF that a pair of surrogates stands for. -/
def joinSurrogates (high low : Nat) : Nat := 0x10000 + (high - 0xD800) * 0x400 + (low - 0xDC00)

/-- Reads a text after its opening quote; `acc` holds what has been read, in reverse. A
surrogate outside a pair has no character and becomes the replacement character. -/
def readText (acc : List Char) : List Char → Option (String × List Char)
  | [] => none
  | '"' :: rest => some (String.ofList acc.reverse, rest)
  | '\\' :: 'u' :: a :: b :: c :: d :: '\\' :: 'u' :: e :: f :: g :: h :: rest =>
      match hexCode? a b c d, hexCode? e f g h with
      | some high, some low =>
          if 0xD800 ≤ high ∧ high < 0xDC00 ∧ 0xDC00 ≤ low ∧ low < 0xE000 then
            readText (Char.ofNat (joinSurrogates high low) :: acc) rest
          else
            readText ((if high.isValidChar then Char.ofNat high else Char.ofNat 0xFFFD) :: acc)
              ('\\' :: 'u' :: e :: f :: g :: h :: rest)
      | _, _ => none
  | '\\' :: 'u' :: a :: b :: c :: d :: rest =>
      match hexCode? a b c d with
      | some n => readText ((if n.isValidChar then Char.ofNat n else Char.ofNat 0xFFFD) :: acc) rest
      | none => none
  | '\\' :: c :: rest =>
      match escaped? c with
      | some e => readText (e :: acc) rest
      | none => none
  | c :: rest => if c.toNat < 0x20 then none else readText (c :: acc) rest

/-- Splits off the leading ASCII digits. -/
def takeDigits (cs : List Char) : List Char × List Char :=
  (cs.takeWhile Char.isDigit, cs.dropWhile Char.isDigit)

/-- The digits of a fraction, if a point with at least one digit comes next. -/
def readFraction (cs : List Char) : List Char × List Char :=
  match cs with
  | '.' :: rest =>
      match takeDigits rest with
      | ([], _) => ([], cs)
      | taken => taken
  | _ => ([], cs)

/-- The exponent, if an `e` with an optional sign and at least one digit comes next. -/
def readExponent (cs : List Char) : Option Int × List Char :=
  let signed (sign : Int) (rest : List Char) : Option Int × List Char :=
    match takeDigits rest with
    | ([], _) => (none, cs)
    | (ds, rest) => (some (sign * Text.digitsValue ds), rest)
  match cs with
  | c :: rest =>
      if c = 'e' ∨ c = 'E' then
        match rest with
        | '-' :: rest => signed (-1) rest
        | '+' :: rest => signed 1 rest
        | rest => signed 1 rest
      else (none, cs)
  | [] => (none, cs)

/-- Reads the part of a number after its sign. -/
def readMagnitude (negative : Bool) (cs : List Char) : Option (Value × List Char) :=
  let whole : List Char × List Char :=
    match cs with
    | '0' :: rest => (['0'], rest)
    | cs => takeDigits cs
  match whole with
  | ([], _) => none
  | (ds, rest) =>
      let (fs, rest) := readFraction rest
      let (exponent, rest) := readExponent rest
      if fs.isEmpty && exponent.isNone then
        let n : Int := Text.digitsValue ds
        some (.int (if negative then -n else n), rest)
      else
        some (.float (Double.ofDecimal negative (Text.digitsValue (ds ++ fs))
          (exponent.getD 0 - fs.length)), rest)

/-- Reads a number. -/
def readNumber : List Char → Option (Value × List Char)
  | 'N' :: 'a' :: 'N' :: rest => some (.float Double.nan, rest)
  | 'I' :: 'n' :: 'f' :: 'i' :: 'n' :: 'i' :: 't' :: 'y' :: rest =>
      some (.float (Double.infinite false), rest)
  | '-' :: 'I' :: 'n' :: 'f' :: 'i' :: 'n' :: 'i' :: 't' :: 'y' :: rest =>
      some (.float (Double.infinite true), rest)
  | '-' :: rest => readMagnitude true rest
  | cs => readMagnitude false cs

mutual

/-- Reads a value that starts at the first character. -/
def readValue : Nat → List Char → Option (Value × List Char)
  | 0, _ => none
  | fuel + 1, cs =>
      match cs with
      | '"' :: rest => (readText [] rest).map fun (s, rest) => (.str s, rest)
      | '[' :: rest =>
          match skipGap rest with
          | ']' :: rest => some (.list [], rest)
          | rest => readItems fuel [] rest
      | '\x7b' :: rest =>
          match skipGap rest with
          | '\x7d' :: rest => some (.object [], rest)
          | rest => readFields fuel [] rest
      | 'n' :: 'u' :: 'l' :: 'l' :: rest => some (.null, rest)
      | 't' :: 'r' :: 'u' :: 'e' :: rest => some (.bool true, rest)
      | 'f' :: 'a' :: 'l' :: 's' :: 'e' :: rest => some (.bool false, rest)
      | cs => readNumber cs

/-- Reads the items of a list from the next one on; `acc` holds those before, in reverse. -/
def readItems : Nat → List Value → List Char → Option (Value × List Char)
  | 0, _, _ => none
  | fuel + 1, acc, cs =>
      match readValue fuel cs with
      | none => none
      | some (v, rest) =>
          match skipGap rest with
          | ',' :: rest => readItems fuel (v :: acc) (skipGap rest)
          | ']' :: rest => some (.list (v :: acc).reverse, rest)
          | _ => none

/-- Reads the fields of an object from the next one on, after those in `acc`. -/
def readFields : Nat → Fields → List Char → Option (Value × List Char)
  | 0, _, _ => none
  | fuel + 1, acc, cs =>
      match cs with
      | '"' :: rest =>
          match readText [] rest with
          | none => none
          | some (key, rest) =>
              match skipGap rest with
              | ':' :: rest =>
                  match readValue fuel (skipGap rest) with
                  | none => none
                  | some (v, rest) =>
                      match skipGap rest with
                      | ',' :: rest => readFields fuel (Entries.put key v acc) (skipGap rest)
                      | '\x7d' :: rest => some (.object (Entries.put key v acc), rest)
                      | _ => none
              | _ => none
      | _ => none

end

/-- The value that a JSON text writes, if it is one. -/
def read? (text : String) : Option Value :=
  let cs := text.toList
  match readValue (2 * cs.length + 2) (skipGap cs) with
  | some (v, rest) => if (skipGap rest).isEmpty then some v else none
  | none => none

end TokenGate.Json
