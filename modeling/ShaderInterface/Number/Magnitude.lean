/-!
# Magnitudes of Doubles

Every finite double is a whole multiple of the smallest positive one, `2 ^ (-1074)`. This module
splits the bits of a double into its sign and its magnitude, reads a magnitude as a number of these
units, and builds the double with a given sign and magnitude.
-/

namespace ShaderInterface.Number

/-- The magnitude of the infinities; greater magnitudes are no numbers. -/
def infiniteMagnitude : Nat := 2047 * Nat.pow 2 52

/-- How many units make one. -/
def unitsPerOne : Nat := Nat.pow 2 1074

/-- The bits of a double below its sign bit. -/
def magnitude (x : Float) : Nat :=
  x.toBits.toNat % Nat.pow 2 63

/-- Whether the sign bit of a double is set. -/
def isSigned (x : Float) : Bool :=
  Nat.pow 2 63 ≤ x.toBits.toNat

/-- How many units a magnitude stands for. The infinities continue the scale. -/
def units (magnitude : Nat) : Nat :=
  let mantissas := Nat.pow 2 52
  if magnitude < mantissas then magnitude
  else (mantissas + magnitude % mantissas) * Nat.pow 2 (magnitude / mantissas - 1)

/-- The bits of a magnitude no greater than the infinite one, under either sign, are valid. -/
theorem valid_of_magnitude_le {bits : Nat} (h : bits % Nat.pow 2 63 ≤ infiniteMagnitude) :
    Float.Model.Format.binary64.Valid (UInt64.ofNat bits).toBitVec := by
  constructor
  -- A full exponent leaves no room for a mantissa below the infinite magnitude, which has none.
  intro hexponent hmantissa
  have exponent := congrArg BitVec.toNat hexponent
  have mantissa := fun h => hmantissa (BitVec.eq_of_toNat_eq h)
  simp only [Float.Model.UnpackedFloat.unpackExponent, Float.Model.UnpackedFloat.unpackMantissa]
    at exponent mantissa
  simp [Nat.shiftRight_eq_div_pow] at exponent mantissa
  simp only [infiniteMagnitude, Nat.pow_eq] at h
  omega

/-- The double with the given sign and magnitude; magnitudes above the infinite one are cut to it.
-/
def ofMagnitude (signed : Bool) (magnitude : Nat) : Float :=
  .ofModel
    { toBits := UInt64.ofNat ((if signed then Nat.pow 2 63 else 0) + min magnitude infiniteMagnitude)
      valid := valid_of_magnitude_le (by
        have bound := Nat.min_le_right magnitude infiniteMagnitude
        have size : infiniteMagnitude < Nat.pow 2 63 := by decide
        simp only [Nat.pow_eq] at size ⊢
        split <;> omega) }

end ShaderInterface.Number
