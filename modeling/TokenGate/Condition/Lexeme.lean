import TokenGate.Text.Blank
import TokenGate.Text.Digit
import TokenGate.Text.Identifier
import TokenGate.Text.Quoted

/-!
# Lexemes of conditions

The smallest parts of a condition: numbers, quotations, operator symbols, and names, which may be
dotted. `Lexeme.text` writes a lexeme and `Lexeme.read?` reads the longest one that a text starts
with. A condition is split by cutting lexemes off its front, blanks between them being skipped,
until nothing but blanks is left.
-/

namespace TokenGate.Condition

open Text

/-- The relation that two values are tested for. -/
inductive Comparison where
  | equal
  | notEqual
  | less
  | atMost
  | greater
  | atLeast
  deriving DecidableEq, Repr

/-- The symbols of the condition language. -/
inductive Symbol where
  | or
  | and
  | not
  | compare (c : Comparison)
  | opening
  | closing
  deriving DecidableEq, Repr

/-- The characters of a symbol. -/
def Symbol.text : Symbol → List Char
  | or => ['|', '|']
  | and => ['&', '&']
  | not => ['!']
  | compare .equal => ['=', '=']
  | compare .notEqual => ['!', '=']
  | compare .less => ['<']
  | compare .atMost => ['<', '=']
  | compare .greater => ['>']
  | compare .atLeast => ['>', '=']
  | opening => ['(']
  | closing => [')']

/-- Reads a symbol; where two begin alike, the longer one. -/
def Symbol.read? : List Char → Option (Symbol × List Char)
  | '|' :: '|' :: rest => some (or, rest)
  | '&' :: '&' :: rest => some (and, rest)
  | '=' :: '=' :: rest => some (compare .equal, rest)
  | '!' :: '=' :: rest => some (compare .notEqual, rest)
  | '<' :: '=' :: rest => some (compare .atMost, rest)
  | '>' :: '=' :: rest => some (compare .atLeast, rest)
  | '<' :: rest => some (compare .less, rest)
  | '>' :: rest => some (compare .greater, rest)
  | '!' :: rest => some (not, rest)
  | '(' :: rest => some (opening, rest)
  | ')' :: rest => some (closing, rest)
  | _ => none

/-- A part of a condition. A number has the digits before its point and those after it, which are
absent together with the point. -/
inductive Lexeme where
  | number (whole fraction : List Char)
  | quotation (mark : Char) (body : List Char)
  | symbol (s : Symbol)
  | name (text : List Char)
  deriving DecidableEq, Repr

namespace Lexeme

/-- The characters of a lexeme. -/
def text : Lexeme → List Char
  | number whole fraction => whole ++ if fraction.isEmpty then [] else '.' :: fraction
  | quotation mark body => mark :: (body ++ [mark])
  | symbol s => s.text
  | name t => t

/-- Splits off the characters that continue a name: those of its present part, and every point
that the beginning of a further part follows. -/
def nameTail : List Char → List Char × List Char
  | [] => ([], [])
  | '.' :: c :: rest =>
      if isNameStart c then
        let (t, rest) := nameTail rest
        ('.' :: c :: t, rest)
      else ([], '.' :: c :: rest)
  | c :: rest =>
      if isNamePart c then
        let (t, rest) := nameTail rest
        (c :: t, rest)
      else ([], c :: rest)

/-- Reads the point and the digits of a fraction, if there are any. -/
def readFraction (cs : List Char) : List Char × List Char :=
  match cs with
  | '.' :: rest =>
      if (rest.takeWhile isDecimal).isEmpty then ([], cs)
      else (rest.takeWhile isDecimal, rest.dropWhile isDecimal)
  | _ => ([], cs)

/-- Reads a quotation after its opening mark, up to the next such mark. -/
def readQuotation (mark : Char) (cs : List Char) : Option (Lexeme × List Char) :=
  match cs.dropWhile (· != mark) with
  | [] => none
  | _ :: rest => some (quotation mark (cs.takeWhile (· != mark)), rest)

/-- Reads the lexeme that a text starts with. -/
def read? : List Char → Option (Lexeme × List Char)
  | [] => none
  | c :: rest =>
      if isDecimal c then
        let (fraction, after) := readFraction (rest.dropWhile isDecimal)
        some (number (c :: rest.takeWhile isDecimal) fraction, after)
      else if c = singleQuote ∨ c = doubleQuote then readQuotation c rest
      else if isNameStart c then
        let (t, after) := nameTail rest
        some (name (c :: t), after)
      else (Symbol.read? (c :: rest)).map fun (s, after) => (symbol s, after)

end Lexeme

/-- Splits a text without blanks at its end into lexemes. Where none can be read, the error is
the offset that the blanks before it start at, counted from the beginning of the whole text. -/
def lexFrom : Nat → Nat → List Char → Except Nat (List Lexeme)
  | _, _, [] => .ok []
  | 0, offset, _ :: _ => .error offset
  | fuel + 1, offset, cs =>
      match Lexeme.read? (cs.dropWhile isBlank) with
      | none => .error offset
      | some (l, rest) =>
          let after := offset + (cs.takeWhile isBlank).length + l.text.length
          (lexFrom fuel after rest).map (l :: ·)

/-- The lexemes of a text. -/
def lex (s : String) : Except Nat (List Lexeme) :=
  let cs := dropEndWhile isBlank s.toList
  lexFrom cs.length 0 cs

end TokenGate.Condition
