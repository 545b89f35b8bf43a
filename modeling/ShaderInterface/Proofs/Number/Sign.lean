import Mathlib
import ShaderInterface.Number.Magnitude

/-!
# Signs of Doubles

A double is put together again from its sign and its magnitude, and the double with the same
magnitude and the other sign is its negative. The library's lemmas about the encoding of
doubles, `Float.toBits_inj` and `pack_unpack_of_valid`, come with Mathlib as a whole, and with none of its
modules alone.

## Main results

* `ofMagnitude_magnitude`: a finite double is determined by its sign and its magnitude.
* `neg_eq_of_magnitude_eq`: the double with the same magnitude and the other sign is the negative.
-/

namespace ShaderInterface.Number

open Float.Model.UnpackedFloat
open Float.Model.Format (binary64)

/-! ## The fields of a double -/

/-- The exponent is a field of the magnitude. -/
theorem toNat_unpackExponent (x : Float) :
    (@unpackExponent binary64 x.toBits.toBitVec).toNat = magnitude x / Nat.pow 2 52 := by
  rw [unpackExponent, magnitude]
  simp [Nat.shiftRight_eq_div_pow]
  omega

/-- The mantissa is a field of the magnitude. -/
theorem toNat_unpackMantissa (x : Float) :
    (@unpackMantissa binary64 x.toBits.toBitVec).toNat = magnitude x % Nat.pow 2 52 := by
  rw [unpackMantissa, magnitude]
  simp

/-- The sign is that of the sign bit. -/
theorem ofBitVec_unpackSign (x : Float) :
    Sign.ofBitVec (@unpackSign binary64 x.toBits.toBitVec) =
      if isSigned x then .negative else .positive := by
  have hbits := x.toBits.toNat_lt
  -- Above the magnitude there is only the sign bit.
  have hsign : (@unpackSign binary64 x.toBits.toBitVec).toNat = x.toBits.toNat / Nat.pow 2 63 := by
    rw [unpackSign]
    simp [Nat.shiftRight_eq_div_pow]
    omega
  by_cases h : isSigned x = true
  · rw [if_pos h, Sign.ofBitVec, if_neg]
    intro hzero
    rw [isSigned, decide_eq_true_eq] at h
    have hpos := Nat.div_pos h (Nat.pow_pos (by decide))
    rw [← hsign, hzero] at hpos
    exact absurd hpos (by decide)
  · rw [if_neg h, Sign.ofBitVec, if_pos]
    rw [isSigned, decide_eq_true_eq, Nat.not_le] at h
    rw [Nat.div_eq_of_lt h] at hsign
    exact BitVec.eq_of_toNat_eq hsign

/-! ## Finite doubles -/

/-- The magnitude of a finite double is below the infinite one. -/
theorem magnitude_lt_of_isFinite {x : Float} (h : x.isFinite = true) :
    magnitude x < infiniteMagnitude := by
  -- The infinities and what is no number have a full exponent.
  have hexponent : @unpackExponent binary64 x.toBits.toBitVec ≠ -1#_ := by
    intro hfull
    have hfinite : (unpack binary64 x.toBits.toBitVec).isFinite = true := h
    rw [unpack] at hfinite
    simp only [hfull, if_true] at hfinite
    split at hfinite <;> cases hfinite
  have hfield := toNat_unpackExponent x
  have hbound := (@unpackExponent binary64 x.toBits.toBitVec).isLt
  have hne : (@unpackExponent binary64 x.toBits.toBitVec).toNat ≠ 2047 :=
    fun hfull => hexponent (BitVec.eq_of_toNat_eq hfull)
  have hlt : magnitude x / Nat.pow 2 52 < 2047 := by
    rw [← hfield]
    exact Nat.lt_of_le_of_ne (Nat.le_of_lt_succ hbound) hne
  exact (Nat.div_lt_iff_lt_mul (Nat.pow_pos (by decide))).1 hlt

/-- A finite double is a number. -/
theorem isNaN_of_isFinite {x : Float} (h : x.isFinite = true) : x.isNaN = false := by
  show (unpack binary64 x.toBits.toBitVec).isNaN = false
  have hfinite : (unpack binary64 x.toBits.toBitVec).isFinite = true := h
  cases hunpack : unpack binary64 x.toBits.toBitVec with
  | notANumber =>
    rw [hunpack] at hfinite
    cases hfinite
  | infinity | zero | finite => rfl

/-- A number that is not finite has the infinite magnitude. -/
theorem magnitude_of_isInfinite {x : Float} (hnumber : x.isNaN = false) (hfinite : x.isFinite = false) :
    magnitude x = infiniteMagnitude := by
  change (unpack binary64 x.toBits.toBitVec).isNaN = false at hnumber
  change (unpack binary64 x.toBits.toBitVec).isFinite = false at hfinite
  rw [unpack] at hnumber hfinite
  by_cases hfull : @unpackExponent binary64 x.toBits.toBitVec = -1#_
  · by_cases hzero : @unpackMantissa binary64 x.toBits.toBitVec = 0#_
    · -- The exponent is full, and the mantissa is empty.
      have hexponent := toNat_unpackExponent x
      have hmantissa := toNat_unpackMantissa x
      rw [hfull] at hexponent
      rw [hzero] at hmantissa
      change 2047 = _ at hexponent
      change 0 = _ at hmantissa
      rw [infiniteMagnitude, ← Nat.div_add_mod' (magnitude x) (Nat.pow 2 52), ← hexponent, ← hmantissa,
        Nat.add_zero]
    · simp only [hfull, hzero, if_true, if_false] at hnumber
      cases hnumber
  · simp only [hfull, if_false] at hfinite
    split at hfinite
    · split at hfinite <;> cases hfinite
    · cases hfinite

/-- A finite double is determined by its sign and its magnitude. -/
theorem ofMagnitude_magnitude {x : Float} (h : x.isFinite = true) :
    ofMagnitude (isSigned x) (magnitude x) = x := by
  have hbits := x.toBits.toNat_lt
  rw [← Float.toBits_inj, ← UInt64.toNat_inj]
  show (UInt64.ofNat _).toNat = _
  rw [min_eq_left (magnitude_lt_of_isFinite h).le, UInt64.toNat_ofNat', isSigned, magnitude]
  simp only [decide_eq_true_eq, Nat.pow_eq]
  split <;> omega

/-! ## Negatives -/

/-- The double with the same magnitude and the other sign is the negative. -/
theorem neg_eq_of_magnitude_eq {x y : Float} (hmagnitude : magnitude y = magnitude x)
    (hsigned : isSigned y = !isSigned x) : -x = y := by
  have hexponent : @unpackExponent binary64 y.toBits.toBitVec =
      @unpackExponent binary64 x.toBits.toBitVec := by
    apply BitVec.eq_of_toNat_eq
    rw [toNat_unpackExponent, toNat_unpackExponent, hmagnitude]
  have hmantissa : @unpackMantissa binary64 y.toBits.toBitVec =
      @unpackMantissa binary64 x.toBits.toBitVec := by
    apply BitVec.eq_of_toNat_eq
    rw [toNat_unpackMantissa, toNat_unpackMantissa, hmagnitude]
  have hsign : Sign.ofBitVec (@unpackSign binary64 y.toBits.toBitVec) =
      -Sign.ofBitVec (@unpackSign binary64 x.toBits.toBitVec) := by
    rw [ofBitVec_unpackSign, ofBitVec_unpackSign, hsigned]
    cases isSigned x <;> rfl
  -- All fields but the sign are the same, and the negative changes the sign only.
  have hunpack : (unpack binary64 x.toBits.toBitVec).neg = unpack binary64 y.toBits.toBitVec := by
    simp only [unpack, hexponent, hmantissa, hsign]
    split
    · split <;> rfl
    · split
      · split <;> rfl
      · rfl
  rw [← Float.toBits_inj, ← UInt64.toBitVec_inj]
  show (unpack binary64 x.toBits.toBitVec).neg.pack binary64 = _
  rw [hunpack]
  exact pack_unpack_of_valid y.toModel.valid

/-- The negative of a double is the one with its magnitude and the other sign. -/
theorem neg_ofMagnitude (magnitude : Nat) : -ofMagnitude false magnitude = ofMagnitude true magnitude := by
  have hbound : min magnitude infiniteMagnitude ≤ infiniteMagnitude := min_le_right _ _
  have hbits (signed : Bool) : (ofMagnitude signed magnitude).toBits.toNat =
      (if signed then Nat.pow 2 63 else 0) + min magnitude infiniteMagnitude := by
    show (UInt64.ofNat _).toNat = _
    rw [UInt64.toNat_ofNat']
    generalize min magnitude infiniteMagnitude = bounded at hbound ⊢
    simp only [infiniteMagnitude, Nat.pow_eq] at hbound ⊢
    split <;> omega
  generalize min magnitude infiniteMagnitude = bounded at hbound hbits
  simp only [infiniteMagnitude, Nat.pow_eq] at hbound
  apply neg_eq_of_magnitude_eq
  · rw [Number.magnitude, Number.magnitude, hbits, hbits]
    simp
  · rw [isSigned, isSigned, hbits, hbits]
    simp
    omega

end ShaderInterface.Number
