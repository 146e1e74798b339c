import TokenGate.Random.Seed.Reader
import TokenGate.Random.Seed
import TokenGate.Random.Source

/-!
# A generator for runs

A generator with a state of 128 bits that goes forward by a multiplication and an addition. A
number of 64 bits is the two halves of the state folded together and rotated. It serves two draws
of 32 bits, the lower half first. A number below a bound is the upper half of the product of a
draw and the bound; the few draws that would favour some numbers are thrown away. With its seeds, it
is a source of random numbers.
-/

namespace TokenGate.Random

/-- A generator. -/
structure Generator where
  state : Nat
  increment : Nat
  /-- The half of the last 64-bit number that has not been used yet. -/
  kept : Option UInt32
  deriving DecidableEq, Repr

namespace Generator

/-- The multiplier of the state. -/
def multiplier : Nat := 0x2360ed051fc65da44385df649fccf645

/-- Goes forward by one. -/
def step (g : Generator) : Generator :=
  { g with state := (g.state * multiplier + g.increment) % Nat.pow 2 128 }

/-- A 64-bit number from two words, the lower first. -/
def join (low high : UInt32) : Nat := low.toNat + high.toNat * Nat.pow 2 32

/-- The generator of a seed. -/
def ofSeed (seed : List Nat) : Generator :=
  match (Pool.ofSeed seed).draw 8 with
  | [a, b, c, d, e, f, g, h] =>
      let start := join a b * Nat.pow 2 64 + join c d
      let increment := ((join e f * Nat.pow 2 64 + join g h) * 2 + 1) % Nat.pow 2 128
      let first := step ⟨0, increment, none⟩
      step { first with state := (first.state + start) % Nat.pow 2 128 }
  | _ => ⟨0, 1, none⟩

/-- Rotates a 64-bit number to the right. -/
def rotateRight (x n : Nat) : Nat := (x / Nat.pow 2 n + x * Nat.pow 2 (64 - n)) % Nat.pow 2 64

/-- The next 64-bit number. -/
def next64 (g : Generator) : Nat × Generator :=
  let g := g.step
  let folded := (g.state / Nat.pow 2 64) ^^^ (g.state % Nat.pow 2 64)
  (rotateRight folded (g.state / Nat.pow 2 122), g)

/-- The next 32-bit number. -/
def next32 (g : Generator) : UInt32 × Generator :=
  match g.kept with
  | some w => (w, { g with kept := none })
  | none =>
      let (n, g) := g.next64
      (UInt32.ofNat n, { g with kept := some (UInt32.ofNat (n / Nat.pow 2 32)) })

/-- Draws until the lower half of the product with the bound reaches a threshold, at most `fuel`
times more. -/
def drawAbove (bound threshold : Nat) : Nat → Generator → Nat × Generator
  | 0, g => let (w, g) := g.next32; (w.toNat * bound, g)
  | fuel + 1, g =>
      let (w, g) := g.next32
      let product := w.toNat * bound
      if product % Nat.pow 2 32 < threshold then drawAbove bound threshold fuel g else (product, g)

/-- How often a draw may be thrown away. For a bound below 2 ^ 31 each is thrown away with a
chance below one half. -/
def patience : Nat := 1000

/-- A number below a positive bound. For the bound one, nothing is drawn. -/
def below (bound : Nat) (g : Generator) : Nat × Generator :=
  if bound ≤ 1 then (0, g)
  else
    let (product, g) := drawAbove bound ((Nat.pow 2 32 - bound) % bound) patience g
    (product / Nat.pow 2 32, g)

/-- The draws that are tried are 32-bit words multiplied by the bound. -/
theorem drawAbove_lt {bound : Nat} (h : 0 < bound) (threshold fuel : Nat) (g : Generator) :
    (g.drawAbove bound threshold fuel).1 < Nat.pow 2 32 * bound := by
  induction fuel generalizing g with
  | zero => exact Nat.mul_lt_mul_of_pos_right g.next32.1.toNat_lt h
  | succ fuel ih =>
    simp only [drawAbove]
    split
    · exact ih _
    · exact Nat.mul_lt_mul_of_pos_right g.next32.1.toNat_lt h

/-- A number below a bound is below the bound. -/
theorem below_lt {bound : Nat} (g : Generator) (h : 0 < bound) : (g.below bound).1 < bound := by
  unfold below
  split
  · exact h
  · exact Nat.div_lt_of_lt_mul (drawAbove_lt h _ _ g)

end Generator

/-- The generator and its seeds as a source of random numbers. -/
def Source.usual : Source Generator SeedError where
  ofSeed v := (Seed.ofValue v).map Generator.ofSeed
  draw bound g := g.below bound
  draw_lt := Generator.below_lt

end TokenGate.Random
