import TokenGate.Text.Blank
import TokenGate.Text.Hex

/-!
# Decimal digits

Numbers in conditions and on the command line may be written in the decimal digits of any script.
The digits of a script are ten consecutive characters that start with its zero, so the table lists
the zeros.
-/

namespace TokenGate.Text

/-- The character codes of the zeros of all scripts with decimal digits, in increasing order. -/
def digitZeros : List Nat := [
  0x30, 0x660, 0x6F0, 0x7C0, 0x966, 0x9E6, 0xA66, 0xAE6, 0xB66, 0xBE6, 0xC66, 0xCE6, 0xD66,
  0xDE6, 0xE50, 0xED0, 0xF20, 0x1040, 0x1090, 0x17E0, 0x1810, 0x1946, 0x19D0, 0x1A80, 0x1A90,
  0x1B50, 0x1BB0, 0x1C40, 0x1C50, 0xA620, 0xA8D0, 0xA900, 0xA9D0, 0xA9F0, 0xAA50, 0xABF0, 0xFF10,
  0x104A0, 0x10D30, 0x11066, 0x110F0, 0x11136, 0x111D0, 0x112F0, 0x11450, 0x114D0, 0x11650,
  0x116C0, 0x11730, 0x118E0, 0x11950, 0x11C50, 0x11D50, 0x11DA0, 0x16A60, 0x16AC0, 0x16B50,
  0x1D7CE, 0x1D7D8, 0x1D7E2, 0x1D7EC, 0x1D7F6, 0x1E140, 0x1E2F0, 0x1E950, 0x1FBF0]

/-- The value of a decimal digit of any script. -/
def digitValue? (c : Char) : Option Nat :=
  (digitZeros.find? fun z => z ≤ c.toNat && c.toNat ≤ z + 9).map (c.toNat - ·)

/-- Whether a character is a decimal digit of some script. -/
def isDecimal (c : Char) : Bool := (digitValue? c).isSome

/-- The value of a decimal digit; other characters count as zero. -/
def digitValue (c : Char) : Nat := (digitValue? c).getD 0

/-- The number that a list of decimal digits writes, most significant digit first. -/
def digitsValue (cs : List Char) : Nat :=
  cs.foldl (fun n c => 10 * n + digitValue c) 0

/-- Whether a digit comes first, and a digit follows every underscore. -/
def wellSpaced (isDigit : Char → Bool) : List Char → Bool
  | [] => false
  | [c] => isDigit c
  | c :: '_' :: rest => isDigit c && wellSpaced isDigit rest
  | c :: rest => isDigit c && wellSpaced isDigit rest

/-- The number that digits with single underscores between them write. -/
def spacedNumber? (cs : List Char) : Option Nat :=
  if wellSpaced isDecimal cs then some (digitsValue (cs.filter (· != '_'))) else none

/-- The integer that a text writes: digits with single underscores between them, behind a sign or
none, and possibly between blanks. -/
def integer? (s : String) : Option Int :=
  match trimChars isUnicodeSpace s.toList with
  | '-' :: cs => (spacedNumber? cs).map fun n => -(n : Int)
  | '+' :: cs => (spacedNumber? cs).map fun n => (n : Int)
  | cs => (spacedNumber? cs).map fun n => (n : Int)

/-- The value of a hexadecimal digit, or of a decimal digit of any script. -/
def wideHexValue? (c : Char) : Option Nat :=
  match hexValue? c with
  | some n => some n
  | none => digitValue? c

/-- The number that a text writes in hexadecimal digits behind `0x`, with single underscores before
and between them, and possibly with blanks behind them. -/
def prefixedHex? (s : String) : Option Nat :=
  match trimChars isUnicodeSpace s.toList with
  | '0' :: 'x' :: cs =>
      let cs := if cs.head? = some '_' then cs.drop 1 else cs
      if wellSpaced (fun c => (wideHexValue? c).isSome) cs then
        some ((cs.filter (· != '_')).foldl (fun n c => 16 * n + (wideHexValue? c).getD 0) 0)
      else none
  | _ => none

/-- A digit's value is below ten. -/
theorem digitValue?_lt {c : Char} {d : Nat} (h : digitValue? c = some d) : d < 10 := by
  simp only [digitValue?, Option.map_eq_some_iff] at h
  obtain ⟨z, hz, rfl⟩ := h
  have := List.find?_some hz
  simp only [Bool.and_eq_true, decide_eq_true_eq] at this
  omega

end TokenGate.Text
