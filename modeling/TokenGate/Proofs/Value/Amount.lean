import Mathlib.Algebra.Order.Floor.Semifield
import Mathlib.Data.Rat.Floor
import TokenGate.Value.Amount

/-!
# Finite numbers as amounts

A finite number says, as an amount, whether it is below zero, and otherwise the largest whole number
that is not above it. It is zero as an amount only if it is zero, so that all numbers between zero
and one say zero without being it.
-/

namespace TokenGate

open Number

namespace Number.Double

variable {x : Double} {q : Rat}

/-- The numerator is zero only with the mantissa, and the denominator never. -/
theorem ratio_spec (x : Double) : (x.ratio.1 = 0 ↔ x.mantissa = 0) ∧ 0 < x.ratio.2 := by
  unfold ratio
  split
  · simp
  · simp

/-- The value of a finite double is its ratio with its sign. -/
theorem extended?_eq_finite (h : x.extended? = some (.finite q)) :
    x.isFinite = true ∧
      q = if x.signBit then -((x.ratio.1 : Rat) / x.ratio.2)
        else (x.ratio.1 : Rat) / x.ratio.2 := by
  unfold extended? at h
  split at h
  · rename_i finite
    rw [Rat.mkRat_eq_div] at h
    exact ⟨finite, (Extended.finite.inj (Option.some.inj h)).symm⟩
  · split at h
    · cases h
    · split at h <;> cases h

end Number.Double

namespace Amount

variable {v : Value} {q : Rat}

/-- What a finite double says as an amount. -/
theorem ofDouble_of_finite {x : Double} (h : x.extended? = some (.finite q)) :
    ofDouble x = if q < 0 then negative else whole ⌊q⌋₊ (q = 0) := by
  obtain ⟨zero, positive⟩ := x.ratio_spec
  obtain ⟨finite, size⟩ := Double.extended?_eq_finite h
  have bounded : ofDouble x =
      if x.isNegative then negative else whole x.truncate.toNat x.isZero := by
    simp [ofDouble, Double.isNaN, Double.isInfinite, finite]
  rw [bounded]
  by_cases none : x.mantissa = 0
  · have bare : q = 0 := by
      rw [size, zero.2 none]
      simp
    simp [Double.isNegative, Double.isZero, Double.truncate, none, zero.2 none, bare]
  · have some : (0 : Rat) < (x.ratio.1 : Rat) / x.ratio.2 :=
      div_pos (Nat.cast_pos.2 (Nat.pos_of_ne_zero (mt zero.1 none))) (Nat.cast_pos.2 positive)
    have nonzero : x.isZero = false := beq_false_of_ne none
    cases sign : x.signBit with
    | true =>
      rw [sign, if_pos rfl] at size
      have below : q < 0 := size ▸ neg_neg_of_pos some
      simp [Double.isNegative, sign, nonzero, below]
    | false =>
      rw [sign, if_neg Bool.false_ne_true] at size
      have floor : ⌊q⌋₊ = x.ratio.1 / x.ratio.2 := size ▸ Nat.floor_div_eq_div _ _
      have cut : x.truncate = (x.ratio.1 / x.ratio.2 : Nat) := by simp [Double.truncate, sign]
      have above : 0 < q := size ▸ some
      rw [if_neg above.not_gt, floor, decide_eq_false above.ne']
      simp only [Double.isNegative, sign, Bool.false_and, Bool.false_eq_true, ↓reduceIte,
        nonzero, cut, Int.toNat_natCast]

/-- What a finite number says as an amount. -/
theorem ofValue?_of_number? (h : v.number? = some (.finite q)) :
    ofValue? v = some (if q < 0 then negative else whole ⌊q⌋₊ (q = 0)) := by
  cases v with
  | bool b =>
    cases h
    cases b <;> simp [ofValue?]
  | int n =>
    cases h
    cases n with
    | ofNat n =>
      have above : ¬ ((n : Int) : Rat) < 0 := by exact_mod_cast (Nat.zero_le n).not_gt
      rw [Int.ofNat_eq_natCast, if_neg above]
      simp only [Int.cast_natCast, Nat.floor_natCast, Nat.cast_eq_zero]
      rfl
    | negSucc n =>
      have below : ((Int.negSucc n : Int) : Rat) < 0 := by exact_mod_cast Int.negSucc_lt_zero n
      rw [ofValue?, ofInt, if_pos below]
  | float x => exact congrArg some (ofDouble_of_finite h)
  | _ => cases h

end Amount

end TokenGate
