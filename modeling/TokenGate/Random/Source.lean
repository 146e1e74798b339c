import TokenGate.Value

/-!
# Sources of random numbers

What random play needs of a generator: that it is made from a seed, and that a number below a bound
can be drawn from it. A draw is determined by the bound and the generator, which goes on to another
one.
-/

namespace TokenGate.Random

/-- A source of random numbers; `γ` are its generators, and `ε` says what is wrong with a seed. -/
structure Source (γ ε : Type) where
  /-- The generator of a seed. -/
  ofSeed : Value → Except ε γ
  /-- A number below a bound, and the generator after that. -/
  draw : Nat → γ → Nat × γ
  draw_lt : ∀ {bound : Nat} (g : γ), 0 < bound → (draw bound g).1 < bound

end TokenGate.Random
