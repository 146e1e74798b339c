import TokenGate.Number.Double

/-!
# Shortest decimals

The decimal that a double is written as: the fewest digits that still read back as the same
double, and of those the nearest to it. A double is read back from every real between the two
midpoints to its neighbours, the midpoints themselves only when its mantissa is even. For one
digit, two digits and so on, the two decimals around the value are tested in exact arithmetic,
and the first length with a hit wins; seventeen digits always suffice.

How the digits are laid out is a separate choice, recorded in a `Layout`.
-/

namespace TokenGate.Number

/-- The decimal `digits * 10 ^ power`. -/
structure Decimal where
  digits : Nat
  power : Int
  deriving DecidableEq, Repr

/-- How a decimal is laid out: positional when the exponent of its first digit lies in
`[low, high)`, otherwise with an exponent of at least `exponentDigits` digits and a sign. -/
structure Layout where
  low : Int
  high : Int
  exponentDigits : Nat

namespace Shortest

/-- The number of decimal digits of a number. -/
def digitCount (n : Nat) : Nat := (Nat.toDigits 10 n).length

/-- The exponent of the largest power of ten that is at most `num / den`, both positive. -/
def floorLog10 (num den : Nat) : Int :=
  if den ≤ num then (digitCount (num / den) : Int) - 1
  else
    let d := digitCount (den / num)
    if den = num * Nat.pow 10 (d - 1) then -((d : Int) - 1) else -(d : Int)

/-- The reals that read back as one double: those between `low / den` and `high / den`, the
ends included when `closed`. -/
structure Interval where
  low : Nat
  high : Nat
  den : Nat
  closed : Bool

/-- The interval of a positive finite double, over four times its denominator. The gap below a
power of two is half the gap above it. -/
def interval (x : Double) : Interval :=
  let (num, den) := x.ratio
  let unit := num / x.mantissa
  let below := if x.fraction = 0 ∧ 1 < x.exponentField then unit else 2 * unit
  { low := 4 * num - below
    high := 4 * num + 2 * unit
    den := 4 * den
    closed := x.mantissa % 2 = 0 }

/-- Whether the decimal `d * 10 ^ k` lies in an interval. -/
def Interval.holds (i : Interval) (d : Nat) (k : Int) : Bool :=
  let (value, scale) :=
    if 0 ≤ k then (d * Nat.pow 10 k.toNat * i.den, 1) else (d * i.den, Nat.pow 10 (-k).toNat)
  if i.closed then i.low * scale ≤ value && value ≤ i.high * scale
  else i.low * scale < value && value < i.high * scale

/-- The decimal of unit `10 ^ k` that reads back as `num / den` and is nearest to it, if one
does: one of the two multiples of the unit around the value, the even one when both are equally
near. -/
def atPower (i : Interval) (num den : Nat) (k : Int) : Option Nat :=
  let (n, u) :=
    if 0 ≤ k then (num, den * Nat.pow 10 k.toNat) else (num * Nat.pow 10 (-k).toNat, den)
  let d := n / u
  let r := n % u
  match i.holds d k, i.holds (d + 1) k with
  | true, true =>
      some (if 2 * r < u then d else if u < 2 * r then d + 1 else if d % 2 = 0 then d else d + 1)
  | true, false => some d
  | false, true => some (d + 1)
  | false, false => none

/-- Tries the lengths from `n` on, `left` of them. A hit of `n + 1` digits is a power of ten,
which one digit writes. -/
def search (i : Interval) (num den : Nat) (top : Int) : (n left : Nat) → Decimal
  | n, 0 => ⟨num / den, top + 1 - n⟩
  | n, left + 1 =>
      let k : Int := top + 1 - (n : Int)
      match atPower i num den k with
      | some d => if d = Nat.pow 10 n then ⟨1, k + n⟩ else ⟨d, k⟩
      | none => search i num den top (n + 1) left

/-- The shortest decimal of a positive finite double. -/
def decimal (x : Double) : Decimal :=
  let (num, den) := x.ratio
  search (interval x) num den (floorLog10 num den) 1 17

end Shortest

namespace Layout

/-- The exponent part: a letter, a sign, and at least the layout's number of digits. -/
def exponentText (l : Layout) (e : Int) : List Char :=
  let ds := Nat.toDigits 10 e.natAbs
  'e' :: (if e < 0 then '-' else '+') :: (List.replicate (l.exponentDigits - ds.length) '0' ++ ds)

/-- Lays out a decimal; a positional one always shows a digit after the point. -/
def render (l : Layout) (d : Decimal) : List Char :=
  let ds := Nat.toDigits 10 d.digits
  let point : Int := ds.length + d.power
  if l.low ≤ point - 1 ∧ point - 1 < l.high then
    if point ≤ 0 then '0' :: '.' :: (List.replicate (-point).toNat '0' ++ ds)
    else if ds.length ≤ point.toNat then
      ds ++ List.replicate (point.toNat - ds.length) '0' ++ ['.', '0']
    else ds.take point.toNat ++ '.' :: ds.drop point.toNat
  else
    match ds with
    | [] => []
    | first :: [] => first :: l.exponentText (point - 1)
    | first :: rest => first :: '.' :: (rest ++ l.exponentText (point - 1))

end Layout

namespace Double

/-- A double in the shortest digits that read back, in a given layout; `infinity` is the text
of an infinite one, and `nan` that of no number, which has no sign. -/
def text (l : Layout) (infinity nan : String) (x : Double) : String :=
  let body :=
    if x.isInfinite then infinity.toList
    else if x.isZero then l.render ⟨0, 0⟩
    else l.render (Shortest.decimal x)
  if x.isNaN then nan else String.ofList (if x.signBit then '-' :: body else body)

end Double
end TokenGate.Number
