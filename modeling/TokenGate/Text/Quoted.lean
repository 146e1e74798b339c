import TokenGate.Text.Hex
import TokenGate.Text.Printable

/-!
# Quoted text

How messages show a text: between quotes, with whatever could not be read off the page written
as an escape. Single quotes are used unless the text holds a single quote and no double quote.
-/

namespace TokenGate.Text

/-- The single quote. -/
def singleQuote : Char := Char.ofNat 0x27

/-- The double quote. -/
def doubleQuote : Char := Char.ofNat 0x22

/-- The quote that surrounds a text: single, unless only double quotes spare an escape. -/
def quoteMark (cs : List Char) : Char :=
  if cs.contains singleQuote && !cs.contains doubleQuote then doubleQuote else singleQuote

/-- A character inside quotes `q`: the quote and the backslash are escaped, line feed, carriage
return and tab have letters, other characters that are not printable are written in hexadecimal
with the shortest of the widths two, four and eight, and all else stands for itself. -/
def quoteChar (q c : Char) : List Char :=
  if c = q ∨ c = '\\' then ['\\', c]
  else if c = '\n' then ['\\', 'n']
  else if c = '\r' then ['\\', 'r']
  else if c = '\t' then ['\\', 't']
  else if isPrintable c then [c]
  else if c.toNat < 0x100 then '\\' :: 'x' :: hex 2 c.toNat
  else if c.toNat < 0x10000 then '\\' :: 'u' :: hex 4 c.toNat
  else '\\' :: 'U' :: hex 8 c.toNat

/-- A text between quotes. -/
def quoted (s : String) : String :=
  let q := quoteMark s.toList
  String.ofList (q :: (s.toList.flatMap (quoteChar q) ++ [q]))

end TokenGate.Text
