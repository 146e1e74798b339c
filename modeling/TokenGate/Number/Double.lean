/-!
# Binary floating-point numbers

A double is kept as its 64 bits and read as an exact rational, so that comparing it with an
integer, cutting it to a whole number and writing it out are all exact. Reading a decimal rounds
to the nearest double, ties to the even mantissa; what is too large becomes infinite. Some bits
stand for no number at all.
-/

namespace TokenGate.Number

/-- A double, by its bits: one of sign, eleven of exponent, fifty-two of fraction. An exponent
of all ones stands for infinity if the fraction is zero, and for no number otherwise. -/
structure Double where
  bits : UInt64
  deriving DecidableEq, Inhabited, Repr

/-- A number on the extended line: a rational, or one of the two infinities. -/
inductive Extended where
  | negInfinite
  | finite (q : Rat)
  | posInfinite
  deriving DecidableEq, Repr

namespace Extended

/-- The strict order of the extended line. -/
def lt : Extended → Extended → Bool
  | finite p, finite q => p < q
  | negInfinite, negInfinite => false
  | negInfinite, _ => true
  | finite _, posInfinite => true
  | _, _ => false

end Extended

namespace Double

/-- Whether the sign bit is set. -/
def signBit (x : Double) : Bool := x.bits.toNat / Nat.pow 2 63 % 2 == 1

/-- The eleven bits of the exponent. -/
def exponentField (x : Double) : Nat := x.bits.toNat / Nat.pow 2 52 % Nat.pow 2 11

/-- The fifty-two bits of the fraction. -/
def fraction (x : Double) : Nat := x.bits.toNat % Nat.pow 2 52

/-- Whether this is a number that is not infinite. -/
def isFinite (x : Double) : Bool := x.exponentField != 2047

/-- Whether this is no number. -/
def isNaN (x : Double) : Bool := !x.isFinite && x.fraction != 0

/-- Whether this is an infinite number. -/
def isInfinite (x : Double) : Bool := !x.isFinite && x.fraction == 0

/-- The whole number `m` in the absolute value `m * 2 ^ exponent`. -/
def mantissa (x : Double) : Nat :=
  if x.exponentField = 0 then x.fraction else Nat.pow 2 52 + x.fraction

/-- The power of two in the absolute value `mantissa * 2 ^ exponent`. -/
def exponent (x : Double) : Int :=
  if x.exponentField = 0 then -1074 else (x.exponentField : Int) - 1075

/-- The absolute value of a finite double as a fraction, numerator before denominator. -/
def ratio (x : Double) : Nat × Nat :=
  match x.exponent with
  | .ofNat e => (x.mantissa * Nat.pow 2 e, 1)
  | .negSucc e => (x.mantissa, Nat.pow 2 (e + 1))

/-- The exact value, if this is a number. -/
def extended? (x : Double) : Option Extended :=
  if x.isFinite then
    let q := mkRat x.ratio.1 x.ratio.2
    some (.finite (if x.signBit then -q else q))
  else if x.isNaN then none
  else some (if x.signBit then .negInfinite else .posInfinite)

/-- Whether the number is a zero of either sign. -/
def isZero (x : Double) : Bool := x.mantissa == 0

/-- Whether the number is below zero; negative zero is not. -/
def isNegative (x : Double) : Bool := x.signBit && !x.isZero

/-- The whole part, toward zero, of a finite double. -/
def truncate (x : Double) : Int :=
  let n : Nat := x.ratio.1 / x.ratio.2
  if x.signBit then -(n : Int) else n

/-- Whether a finite double has no fractional part. -/
def isWhole (x : Double) : Bool := x.ratio.1 % x.ratio.2 == 0

/-- The quotient of two numbers rounded to the nearest whole number, ties to the even one. -/
def roundEven (num den : Nat) : Nat :=
  let q := num / den
  let r := num % den
  if 2 * r < den ∨ (2 * r = den ∧ q % 2 = 0) then q else q + 1

/-- The exponent of the largest power of two that is at most `num / den`, both positive. -/
def floorLog2 (num den : Nat) : Int :=
  let k : Int := (num.log2 : Int) - den.log2
  let reaches : Bool :=
    if 0 ≤ k then den * Nat.pow 2 k.toNat ≤ num else den ≤ num * Nat.pow 2 (-k).toNat
  if reaches then k else k - 1

/-- The bits of infinity without its sign. -/
def infinityBits : Nat := 2047 * Nat.pow 2 52

/-- The double nearest to `num / den` with the given sign; `den` is positive. -/
def ofRatio (negative : Bool) (num den : Nat) : Double :=
  let magnitude : Nat :=
    if num = 0 then 0
    else
      let e : Int := max (floorLog2 num den - 52) (-1074)
      let m := if 0 ≤ e then roundEven num (den * Nat.pow 2 e.toNat)
        else roundEven (num * Nat.pow 2 (-e).toNat) den
      min ((e + 1074).toNat * Nat.pow 2 52 + m) infinityBits
  ⟨UInt64.ofNat (magnitude + if negative then Nat.pow 2 63 else 0)⟩

/-- The infinite double with the given sign. -/
def infinite (negative : Bool) : Double :=
  ⟨UInt64.ofNat (infinityBits + if negative then Nat.pow 2 63 else 0)⟩

/-- The double that is no number. -/
def nan : Double := ⟨UInt64.ofNat (infinityBits + Nat.pow 2 51)⟩

/-- The double nearest to `digits * 10 ^ power` with the given sign. Powers far outside the
range of doubles are settled without computing them. -/
def ofDecimal (negative : Bool) (digits : Nat) (power : Int) : Double :=
  let size : Int := (Nat.toDigits 10 digits).length
  if digits = 0 ∨ size + power < -400 then ofRatio negative 0 1
  else if 400 < size + power then infinite negative
  else match power with
    | .ofNat p => ofRatio negative (digits * Nat.pow 10 p) 1
    | .negSucc p => ofRatio negative digits (Nat.pow 10 (p + 1))

/-- Zero. -/
def zero : Double := ⟨0⟩

end Double
end TokenGate.Number
