import Mathlib.Algebra.Order.Ring.Nat
import Mathlib.Tactic.Common
import ShaderInterface.Number.Decimal

/-!
# Rounding to the Nearest Double

Rounding looks at a quotient only, not at the numerator and denominator that it is written with, and
it leaves every double as it is. So the decimal that is chosen for a double is rounded to it.

## Main results

* `nearestMagnitude_mul`: rounding depends on the quotient alone.
* `nearestMagnitude_units`: the nearest double of a double is this double.
* `nearestMagnitude_shortest`: the decimal chosen for a double is rounded to it.
-/

namespace ShaderInterface.Number

/-! ## Quotients -/

/-- A factor common to numerator and denominator makes no difference. -/
theorem roundedQuotient_mul (numerator denominator : Nat) {factor : Nat} (h : 0 < factor) :
    roundedQuotient (numerator * factor) (denominator * factor) =
      roundedQuotient numerator denominator := by
  rw [roundedQuotient, roundedQuotient, Nat.mul_div_mul_right _ _ h, Nat.mul_mod_mul_right,
    ← Nat.mul_assoc]
  simp only [Nat.mul_lt_mul_right h]

/-- Nothing is rounded where nothing is left over. -/
theorem roundedQuotient_exact (quotient : Nat) {denominator : Nat} (h : 0 < denominator) :
    roundedQuotient (quotient * denominator) denominator = quotient := by
  rw [roundedQuotient, Nat.mul_div_cancel _ h, Nat.mul_mod_left]
  exact if_pos h

/-- Rounding depends on the quotient alone. -/
theorem nearestMagnitude_mul (numerator denominator : Nat) {factor : Nat} (h : 0 < factor) :
    nearestMagnitude (numerator * factor) (denominator * factor) =
      nearestMagnitude numerator denominator := by
  rw [nearestMagnitude, nearestMagnitude, Nat.mul_div_mul_right _ _ h,
    Nat.mul_right_comm denominator factor, roundedQuotient_mul _ _ h]

/-- Zero is rounded to itself. -/
theorem nearestMagnitude_zero (denominator : Nat) : nearestMagnitude 0 denominator = 0 := by
  rw [nearestMagnitude, Nat.zero_div, Nat.log2_zero]
  simp [roundedQuotient]

/-! ## Doubles -/

/-- The binary digits of the units of a magnitude, of which 53 are kept. -/
theorem log2_units (magnitude : Nat) :
    (units magnitude).log2 - 52 = magnitude / Nat.pow 2 52 - 1 := by
  rw [units]
  simp only [Nat.pow_eq]
  split
  next h =>
    have hlog : magnitude.log2 < 52 ∨ magnitude = 0 := by
      rcases Nat.eq_zero_or_pos magnitude with h0 | hpos
      · exact .inr h0
      · exact .inl ((Nat.log2_lt hpos.ne').2 h)
    rcases hlog with hlog | rfl
    · omega
    · rfl
  next h =>
    generalize hscale : magnitude / 2 ^ 52 - 1 = scale
    have hmantissa : magnitude % 2 ^ 52 < 2 ^ 52 := Nat.mod_lt _ (by decide)
    generalize magnitude % 2 ^ 52 = mantissa at hmantissa
    have hpos : 0 < 2 ^ scale := Nat.two_pow_pos scale
    -- The leading digit of the mantissa counts `2 ^ 52`, and the scale moves all digits up.
    have hlog : ((2 ^ 52 + mantissa) * 2 ^ scale).log2 = 52 + scale := by
      rw [Nat.log2_eq_iff (Nat.mul_pos (by omega) hpos).ne']
      constructor
      · rw [Nat.pow_add]
        exact Nat.mul_le_mul_right _ (by omega)
      · rw [Nat.add_right_comm, Nat.pow_add]
        exact Nat.mul_lt_mul_of_pos_right (by omega) hpos
    omega

/-- The nearest double of a double is this double. -/
theorem nearestMagnitude_units {magnitude : Nat} (h : magnitude ≤ infiniteMagnitude) :
    nearestMagnitude (units magnitude) 1 = magnitude := by
  have hscaled : (magnitude / Nat.pow 2 52 - 1) * Nat.pow 2 52 +
      roundedQuotient (units magnitude) (1 * Nat.pow 2 (magnitude / Nat.pow 2 52 - 1)) =
        magnitude := by
    rw [units]
    simp only [Nat.pow_eq, Nat.one_mul]
    split
    next hsmall =>
      -- There is no digit to lose.
      rw [Nat.div_eq_of_lt hsmall, Nat.zero_sub, Nat.pow_zero]
      have hround := roundedQuotient_exact magnitude Nat.one_pos
      rw [Nat.mul_one] at hround
      rw [hround]
      omega
    next hlarge =>
      rw [roundedQuotient_exact _ (Nat.two_pow_pos _)]
      have := Nat.div_add_mod magnitude (2 ^ 52)
      have : 1 ≤ magnitude / 2 ^ 52 := (Nat.one_le_div_iff (by decide)).2 (by omega)
      omega
  rw [nearestMagnitude, Nat.div_one, log2_units, hscaled]
  exact Nat.min_eq_left h

/-! ## Decimals -/

namespace Decimal

/-- Zero is rounded to itself, whatever its digits count. -/
theorem nearestMagnitude_zero (exponent : Int) : nearestMagnitude ⟨0, exponent⟩ = 0 := by
  rw [nearestMagnitude, Nat.zero_mul, Nat.zero_mul, Number.nearestMagnitude_zero]

/-- A decimal without a positive power of ten is a quotient of its digits and a power of ten. -/
theorem nearestMagnitude_neg (coefficient places : Nat) :
    nearestMagnitude ⟨coefficient, -places⟩ =
      Number.nearestMagnitude (coefficient * unitsPerOne) (Nat.pow 10 places) := by
  simp [nearestMagnitude]

/-- Zeros at the end of the digits behind the point make no difference. -/
theorem nearestMagnitude_mul_ten (coefficient places zeros : Nat) :
    nearestMagnitude ⟨coefficient * 10 ^ zeros, -(places + zeros : Nat)⟩ =
      nearestMagnitude ⟨coefficient, -places⟩ := by
  have hpos : 0 < 10 ^ zeros := Nat.pow_pos (by decide)
  have hpow : Nat.pow 10 (places + zeros) = Nat.pow 10 places * 10 ^ zeros :=
    Nat.pow_add 10 places zeros
  rw [nearestMagnitude_neg, nearestMagnitude_neg, hpow, Nat.mul_right_comm,
    Number.nearestMagnitude_mul _ _ hpos]

/-- The decimal that is equal to a double is rounded to it. -/
theorem nearestMagnitude_ofUnits {magnitude : Nat} (h : magnitude ≤ infiniteMagnitude) :
    (ofUnits (Number.units magnitude)).nearestMagnitude = magnitude := by
  -- A power of ten is one of five and one of two.
  have hround (units places : Nat) :
      Number.nearestMagnitude (units * Nat.pow 5 places * Nat.pow 2 places) (Nat.pow 10 places) =
        Number.nearestMagnitude units 1 := by
    have hpow : Nat.pow 5 places * Nat.pow 2 places = Nat.pow 10 places :=
      (Nat.mul_pow 5 2 places).symm
    have hpos : 0 < Nat.pow 10 places := Nat.pow_pos (by decide)
    rw [Nat.mul_assoc, hpow, ← Number.nearestMagnitude_mul units 1 hpos, Nat.one_mul]
  obtain ⟨places, hplaces⟩ : ∃ places, places = 1074 := ⟨_, rfl⟩
  have hexponent : (-(-1074 : Int)).toNat = places := hplaces.symm
  have hnone : Nat.pow 10 (-1074 : Int).toNat = 1 := rfl
  rw [nearestMagnitude, ofUnits]
  delta unitsPerOne
  rw [← hplaces]
  show Number.nearestMagnitude
    (_ * Nat.pow 10 (-1074 : Int).toNat * _) (Nat.pow 10 (-(-1074 : Int)).toNat) = _
  rw [hexponent, hnone, Nat.mul_one, hround]
  exact nearestMagnitude_units h

/-- A decimal with fewer digits is taken only if it is rounded to the double. -/
theorem nearestMagnitude_of_neighbour? {units magnitude dropped : Nat} {decimal : Decimal}
    (h : neighbour? units magnitude dropped = some decimal) :
    decimal.nearestMagnitude = magnitude := by
  rw [neighbour?] at h
  split at h
  next hbelow =>
    cases h
    rw [Bool.and_eq_true, beq_iff_eq] at hbelow
    exact hbelow.1
  next =>
    split at h
    next habove =>
      cases h
      exact beq_iff_eq.1 habove
    next => cases h

/-- The decimal chosen for a double is rounded to it. -/
theorem nearestMagnitude_shortest {magnitude : Nat} (h : magnitude ≤ infiniteMagnitude) :
    (shortest magnitude).nearestMagnitude = magnitude := by
  rw [shortest]
  generalize (List.range _).map _ = candidates
  cases hfound : candidates.findSome? (neighbour? (Number.units magnitude) magnitude) with
  | none => exact nearestMagnitude_ofUnits h
  | some decimal =>
    obtain ⟨dropped, -, hdecimal⟩ := List.exists_of_findSome?_eq_some hfound
    exact nearestMagnitude_of_neighbour? hdecimal

end Decimal

end ShaderInterface.Number
