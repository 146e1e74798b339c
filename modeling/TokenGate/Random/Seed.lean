/-!
# Seeding

How the words of a seed are spread over the state of a generator. A seed is a list of numbers,
whose words follow one another. All words have 32 bits and all arithmetic wraps. A pool of four
words is filled from the seed and mixed until every word depends on every other; further words of
the seed are mixed in one after another. The state is then drawn from the pool.
-/

namespace TokenGate.Random

/-- Folds the upper half of a word into the lower. -/
def foldHalves (v : UInt32) : UInt32 := v ^^^ (v >>> 16)

/-- Hashes a word. The multiplier changes with every word and is handed on. -/
def hashWord (h v : UInt32) : UInt32 × UInt32 :=
  let next := h * 0x931e8875
  (foldHalves ((v ^^^ h) * next), next)

/-- Mixes a word into another. -/
def mix (x y : UInt32) : UInt32 := foldHalves (0xca01f9dd * x - 0x4973f715 * y)

/-- The 32-bit words of a number, low first; the number zero has one. -/
def wordsOf (n : Nat) : List UInt32 :=
  UInt32.ofNat n :: (if h : n < 0x100000000 then [] else wordsOf (n / 0x100000000))
termination_by n
decreasing_by omega

/-- A pool with the multiplier for the next word. -/
structure Pool where
  words : List UInt32
  multiplier : UInt32

namespace Pool

/-- The number of words in a pool. -/
def size : Nat := 4

/-- A word of a pool. -/
def word (p : Pool) (n : Nat) : UInt32 := p.words.getD n 0

/-- Mixes the hash of a word into the pool at a position. -/
def absorb (p : Pool) (position : Nat) (v : UInt32) : Pool :=
  let (hashed, next) := hashWord p.multiplier v
  ⟨p.words.set position (mix (p.word position) hashed), next⟩

/-- The pool that holds the hashes of the first words of a seed. -/
def fill (seed : List UInt32) : Pool :=
  (List.range size).foldl
    (fun p n =>
      let (hashed, next) := hashWord p.multiplier (seed.getD n 0)
      ⟨p.words ++ [hashed], next⟩)
    ⟨[], 0x43b0d7e5⟩

/-- Mixes every word of the pool into every other. -/
def stir (p : Pool) : Pool :=
  (List.range size).foldl
    (fun p source =>
      ((List.range size).filter (· ≠ source)).foldl (fun p n => p.absorb n (p.word source)) p)
    p

/-- Mixes a further word of a seed into every word of the pool. -/
def extend (p : Pool) (v : UInt32) : Pool :=
  (List.range size).foldl (fun p n => p.absorb n v) p

/-- The pool of a seed. -/
def ofSeed (seed : List Nat) : Pool :=
  let ws := seed.flatMap wordsOf
  (ws.drop size).foldl extend (fill ws).stir

/-- Draws words from the pool, going round. -/
def draw (p : Pool) (count : Nat) : List UInt32 :=
  ((List.range count).foldl
    (fun (drawn : List UInt32 × UInt32) n =>
      let (out, g) := drawn
      let next := g * 0x58f38ded
      (out ++ [foldHalves ((p.word (n % size) ^^^ g) * next)], next))
    ([], 0x8b51f9dd)).1

end Pool
end TokenGate.Random
