import TokenGate.Definition.Reader

/-!
# Numerals

The texts that are usually read as integers. A text is brought into its plain form first: blanks at
the ends, one plus sign, needless zeros at the front or behind one minus sign there, a point that
only zeros follow, and single underscores inside are left out. What remains must be a numeral: an
optional minus sign and digits, the first of which is no zero unless it is the only one.

Runs read definitions this way; nothing that is proved about reading depends on it.
-/

namespace TokenGate

namespace Numeral


/-- Whether a character is a digit other than zero. -/
def isNonzeroDigit (c : Char) : Bool := c.isDigit && c != '0'

/-- What remains of a text after a zero at its front. The zeros and underscores that follow are
needless up to the first other digit or a minus sign; before a point, and at the end of the text,
the `last` of them is kept. Nothing else may follow. -/
def afterZero? (last : Char) : List Char → Option (List Char)
  | [] => some [last]
  | c :: rest =>
      if c = '0' ∨ c = '_' then afterZero? c rest
      else if c = '-' ∨ isNonzeroDigit c = true then some (c :: rest)
      else if c = '.' then some (last :: c :: rest)
      else none

/-- A text without one plus sign at its front, which no minus sign may follow. -/
def dropPlus? : List Char → Option (List Char)
  | '+' :: '-' :: _ => none
  | '+' :: cs => some cs
  | cs => some cs

/-- A text without needless zeros at its front, if it begins with a digit. -/
def dropZeros? : List Char → Option (List Char)
  | [] => none
  | c :: cs =>
      if c = '0' then afterZero? c cs
      else if isNonzeroDigit c then some (c :: cs)
      else none

/-- A text without needless zeros at its front, or behind the minus sign that it begins with. -/
def dropSignedZeros? : List Char → Option (List Char)
  | '-' :: cs => (dropZeros? cs).map ('-' :: ·)
  | cs => dropZeros? cs

/-- A text cut before its first point, if zeros and nothing else follow the point. -/
def dropFraction (cs : List Char) : List Char :=
  match cs.span (· != '.') with
  | (whole, _ :: zeros) => if !zeros.isEmpty && zeros.all (· == '0') then whole else cs
  | (_, []) => cs

/-- Whether no underscore stands at an end or beside another one. -/
def wellGrouped (cs : List Char) : Bool :=
  cs.head? != some '_' && cs.getLast? != some '_' && !(cs.zip cs.tail).contains ('_', '_')

/-- A text without underscores, if it is well grouped. -/
def dropUnderscores (cs : List Char) : List Char :=
  if wellGrouped cs then cs.filter (· != '_') else cs

/-- The number that digits without needless zeros write. -/
def natural? : List Char → Option Nat
  | [] => none
  | ['0'] => some 0
  | c :: cs =>
      if isNonzeroDigit c && cs.all Char.isDigit then some (Text.digitsValue (c :: cs)) else none

/-- The number that a numeral writes. -/
def numeral? : List Char → Option Int
  | '-' :: cs => (natural? cs).map fun n => -(n : Int)
  | cs => (natural? cs).map fun n => (n : Int)

/-- The integer that a text writes. -/
def ofText? (s : String) : Option Int := do
  let cs ← dropPlus? (Text.trimChars Text.isUnicodeSpace s.toList)
  numeral? (dropUnderscores (dropFraction (← dropSignedZeros? cs)))

end Numeral

/-- The reader of data that takes texts for integers as usual. -/
def Reader.usual : Reader := .data Numeral.ofText?

end TokenGate
