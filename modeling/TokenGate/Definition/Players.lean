import TokenGate.Definition.Problem

/-!
# Numbers of players

The number of players is an integer that is at least one. It may be given as a truth value, as a
double without fractional part that fits into 64 bits, or as a text. Which integer a text writes is
left to whoever reads it.
-/

namespace TokenGate.Players

/-- A number that is at least one. -/
def ofInt (n : Int) : Except Complaint Nat :=
  if 1 ≤ n then .ok n.toNat else .error .tooSmall

/-- The number of players that a value says; `integer?` gives the integers that texts write. -/
def ofValue (integer? : String → Option Int) : Value → Except Complaint Nat
  | .bool b => ofInt (if b then 1 else 0)
  | .int n => ofInt n
  | .float x =>
      if !x.isFinite then .error .infinite
      else if !x.isWhole then .error .fractional
      else if x.truncate.natAbs < Nat.pow 2 63 then ofInt x.truncate
      else .error .outOfRange
  | .str s =>
      match integer? s with
      | some n => ofInt n
      | none => .error .notIntegerText
  | _ => .error .notInteger

/-- The number of players where none is said. -/
def default : Nat := 2

end TokenGate.Players
