import TokenGate.Condition.Expr
import TokenGate.Number.Double

/-!
# Reading expressions

From weakest to strongest, alternatives are joined by `||` or `or`, their parts by `&&` or `and`,
a part may be negated by `!` or `not`, and what is negated is one comparison of two primaries, or
a primary alone. A primary is a number, a quotation, a constant, a path, or an expression in
parentheses.

Each function reads from the front of the lexemes and hands on the rest. Every call takes one
unit of fuel; five calls lead from one opening parenthesis to the next, so six units a lexeme are
enough.
-/

namespace TokenGate.Condition

open Number Text

/-- What can be wrong with a condition. -/
inductive Fault where
  /-- The condition is not a text. -/
  | notText
  /-- There is nothing but blanks. -/
  | empty
  /-- No lexeme can be read at the offset. -/
  | strayCharacter (offset : Nat)
  /-- The lexeme is out of place. -/
  | unexpected (l : Lexeme)
  /-- The text ends where a primary is missing. -/
  | unexpectedEnd
  /-- A parenthesis is not closed. -/
  | unclosed
  /-- The word is an operator, where a primary is missing. -/
  | misplaced (word : List Char)
  deriving DecidableEq, Repr

/-- The text of a fault. -/
def Fault.reason : Fault → String
  | notText => "condition must be a string"
  | empty => "expression is empty"
  | strayCharacter offset => "unexpected character at offset " ++ toString offset
  | unexpected l => "unexpected token " ++ quoted (String.ofList l.text)
  | unexpectedEnd => "unexpected end of expression"
  | unclosed => "missing closing parenthesis"
  | misplaced word => "misplaced operator " ++ quoted (String.ofList word)

/-- The lexemes that join alternatives. -/
def Lexeme.isOr (l : Lexeme) : Bool := l == .symbol .or || l == .name ['o', 'r']

/-- The lexemes that join the parts of an alternative. -/
def Lexeme.isAnd (l : Lexeme) : Bool := l == .symbol .and || l == .name ['a', 'n', 'd']

/-- The lexemes that negate. -/
def Lexeme.isNot (l : Lexeme) : Bool := l == .symbol .not || l == .name ['n', 'o', 't']

/-- The value of a number: a double if it has a point, an integer otherwise. -/
def numberValue (whole fraction : List Char) : Value :=
  if fraction.isEmpty then .int (digitsValue whole)
  else .float (Double.ofDecimal false (digitsValue (whole ++ fraction)) (-(fraction.length : Int)))

/-- The constant that a name stands for, if it is one. -/
def constant? (name : List Char) : Option Value :=
  if name = ['t', 'r', 'u', 'e'] then some (.bool true)
  else if name = ['f', 'a', 'l', 's', 'e'] then some (.bool false)
  else if name = ['n', 'u', 'l', 'l'] then some .null
  else none

/-- The primary that a single lexeme is. -/
def atom (l : Lexeme) : Except Fault Expr :=
  match l with
  | .number whole fraction => .ok (.literal (numberValue whole fraction))
  | .quotation _ body => .ok (.literal (.str (String.ofList body)))
  | .symbol s => .error (.unexpected (.symbol s))
  | .name t =>
      match constant? t with
      | some v => .ok (.literal v)
      | none =>
          if l.isOr || l.isAnd || l.isNot then .error (.misplaced t)
          else .ok (.path (Path.ofText (String.ofList t)))

/-- An expression with the lexemes that are left after it, or a fault. -/
abbrev Reading := Except Fault (Expr × List Lexeme)

mutual

/-- Reads alternatives. -/
def readOr : Nat → List Lexeme → Reading
  | 0, _ => .error .unexpectedEnd
  | fuel + 1, ls => do
      let (left, ls) ← readAnd fuel ls
      readMoreOr fuel left ls

/-- Reads what is joined to the alternatives read so far. -/
def readMoreOr : Nat → Expr → List Lexeme → Reading
  | 0, _, _ => .error .unexpectedEnd
  | _ + 1, left, [] => .ok (left, [])
  | fuel + 1, left, l :: rest =>
      if l.isOr then do
        let (right, ls) ← readAnd fuel rest
        readMoreOr fuel (.or left right) ls
      else .ok (left, l :: rest)

/-- Reads the parts of an alternative. -/
def readAnd : Nat → List Lexeme → Reading
  | 0, _ => .error .unexpectedEnd
  | fuel + 1, ls => do
      let (left, ls) ← readNot fuel ls
      readMoreAnd fuel left ls

/-- Reads what is joined to the parts read so far. -/
def readMoreAnd : Nat → Expr → List Lexeme → Reading
  | 0, _, _ => .error .unexpectedEnd
  | _ + 1, left, [] => .ok (left, [])
  | fuel + 1, left, l :: rest =>
      if l.isAnd then do
        let (right, ls) ← readNot fuel rest
        readMoreAnd fuel (.and left right) ls
      else .ok (left, l :: rest)

/-- Reads a part with the negations before it. -/
def readNot : Nat → List Lexeme → Reading
  | 0, _ => .error .unexpectedEnd
  | fuel + 1, l :: rest =>
      if l.isNot then do
        let (e, ls) ← readNot fuel rest
        return (.not e, ls)
      else readComparison fuel (l :: rest)
  | fuel + 1, [] => readComparison fuel []

/-- Reads a comparison, or the primary that stands alone. -/
def readComparison : Nat → List Lexeme → Reading
  | 0, _ => .error .unexpectedEnd
  | fuel + 1, ls => do
      match ← readPrimary fuel ls with
      | (left, .symbol (.compare c) :: rest) =>
          let (right, ls) ← readPrimary fuel rest
          return (.compare c left right, ls)
      | reading => return reading

/-- Reads a primary. -/
def readPrimary : Nat → List Lexeme → Reading
  | 0, _ => .error .unexpectedEnd
  | _ + 1, [] => .error .unexpectedEnd
  | fuel + 1, .symbol .opening :: rest => do
      match ← readOr fuel rest with
      | (e, .symbol .closing :: ls) => return (e, ls)
      | _ => .error .unclosed
  | _ + 1, l :: rest => do
      let e ← atom l
      return (e, rest)

end

/-- The fuel that is enough for a number of lexemes. -/
def enoughFuel (n : Nat) : Nat := 6 * n + 6

/-- The expression that all of the lexemes make up. -/
def readAll (ls : List Lexeme) : Except Fault Expr :=
  if ls.isEmpty then .error .empty
  else do
    match ← readOr (enoughFuel ls.length) ls with
    | (e, []) => return e
    | (_, l :: _) => .error (.unexpected l)

/-- The expression that a text writes. -/
def parse (text : String) : Except Fault Expr :=
  match lex text with
  | .error offset => .error (.strayCharacter offset)
  | .ok ls => readAll ls

end TokenGate.Condition
