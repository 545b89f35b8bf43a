import Mathlib.Data.List.TakeWhile
import Mathlib.Tactic.Common
import ShaderInterface.Number.Positional
import ShaderInterface.Proofs.Number.Nearest
import ShaderInterface.Proofs.Text.Cuts

/-!
# Reading Positional Notation

A decimal that is written in full is read as the number that it is: neither the zeros that fill up
its digits nor those that are left out at its end count for anything, and no size written without a
power of ten is out of range.

## Main results

* `ofText?_positional`: what digits before and behind a point write.
* `ofText?_magnitudeText`: what is written for a magnitude is read as this magnitude.
-/

namespace ShaderInterface.Number

open ShaderInterface.Text

variable {whole kept fraction : Text}

/-! ## Digits and a point -/

/-- Only the zeros at the end of a fraction are not written. -/
theorem exists_fractionText (fraction : Text) :
    ∃ kept zeros, fraction = kept ++ List.replicate zeros '0' ∧
      fractionText fraction = if kept = [] then [] else '.' :: kept := by
  refine ⟨(fraction.reverse.dropWhile (· == '0')).reverse,
    (fraction.reverse.takeWhile (· == '0')).length, ?_, ?_⟩
  · have hzeros : fraction.reverse.takeWhile (· == '0') =
        List.replicate (fraction.reverse.takeWhile (· == '0')).length '0' :=
      List.eq_replicate_iff.2 ⟨rfl, fun c hc => beq_iff_eq.1 (List.all_eq_true.1 List.all_takeWhile c hc)⟩
    rw [← List.reverse_replicate, ← hzeros, ← List.reverse_append,
      List.takeWhile_append_dropWhile, List.reverse_reverse]
  · rw [fractionText]
    cases fraction.reverse.dropWhile (· == '0') <;> simp

/-- Digits before and behind a point write all of these digits, of which the last counts as small a
part as there are digits behind the point. -/
theorem decimalSize?_positional (hne : whole ≠ []) (hwhole : ∀ c ∈ whole, c.isDigit = true)
    (hkept : ∀ c ∈ kept, c.isDigit = true) :
    decimalSize? (whole ++ if kept = [] then [] else '.' :: kept) =
      some (.finite (whole ++ kept) (-kept.length)) := by
  -- There is a point only in front of digits, so that the digits before it end here.
  generalize htail : (if kept = [] then [] else '.' :: kept) = tail
  have hstop : tail.head?.any Char.isDigit = false := by
    subst htail
    split <;> rfl
  have hsplit : splitFraction tail = (kept, []) := by
    subst htail
    split
    next hempty =>
      rw [hempty]
      rfl
    next =>
      rw [splitFraction, List.takeWhile_eq_self_iff.2 hkept, List.dropWhile_eq_nil_iff.2 hkept]
  obtain ⟨htake, hdrop⟩ := takeWhile_append_of_stop [] hstop
  rw [List.nil_append] at htake hdrop
  have hempty : (whole.isEmpty && kept.isEmpty) = false := by
    rw [List.isEmpty_eq_false_iff.2 hne, Bool.false_and]
  rw [decimalSize?, List.takeWhile_append_of_pos hwhole, List.dropWhile_append_of_pos hwhole,
    htake, hdrop]
  simp [hsplit, hempty, powerOfTen?]

/-- No digits without a power of ten are out of range. -/
theorem magnitude_positional (digits : Text) {places : Nat} (h : places ≤ digits.length) :
    Numeral.magnitude digits (-places) =
      Decimal.nearestMagnitude ⟨Nat.ofDigitChars 10 digits 0, -places⟩ := by
  rw [Numeral.magnitude]
  by_cases hzero : Nat.ofDigitChars 10 digits 0 = 0
  · rw [if_pos hzero, hzero, Decimal.nearestMagnitude_zero]
  · rw [if_neg hzero, if_neg (by omega), if_neg (by omega)]

/-- What digits before and behind a point write, of which the zeros at the end are left out. -/
theorem ofText?_positional (hne : whole ≠ []) (hwhole : ∀ c ∈ whole, c.isDigit = true)
    (hfraction : ∀ c ∈ fraction, c.isDigit = true) :
    ofText? (whole ++ fractionText fraction) = some (ofMagnitude false
      (Decimal.nearestMagnitude ⟨Nat.ofDigitChars 10 (whole ++ fraction) 0, -fraction.length⟩)) := by
  obtain ⟨kept, zeros, rfl, htext⟩ := exists_fractionText fraction
  have hkept : ∀ c ∈ kept, c.isDigit = true := fun c hc =>
    hfraction c (List.mem_append_left _ hc)
  have hsign : splitSign (whole ++ fractionText (kept ++ List.replicate zeros '0')) =
      (false, whole ++ fractionText (kept ++ List.replicate zeros '0')) := by
    obtain ⟨c, rest, rfl⟩ := List.exists_cons_of_ne_nil hne
    have hc := hwhole c (List.mem_cons_self ..)
    rw [List.cons_append, splitSign]
    · rintro _ ⟨rfl, -⟩
      cases hc
    · rintro _ ⟨rfl, -⟩
      cases hc
  -- With the zeros that are left out, the digits count a power of ten more.
  have hvalue : Nat.ofDigitChars 10 (whole ++ (kept ++ List.replicate zeros '0')) 0 =
      Nat.ofDigitChars 10 (whole ++ kept) 0 * 10 ^ zeros := by
    rw [← List.append_assoc, Nat.ofDigitChars_append, Nat.ofDigitChars_replicate_zero,
      Nat.mul_comm]
  rw [ofText?, Numeral.ofText?, hsign]
  simp only [htext, decimalSize?_positional hne hwhole hkept, Option.some_or, Option.map_some,
    Numeral.value]
  rw [magnitude_positional _ (by simp), hvalue, List.length_append, List.length_replicate,
    Decimal.nearestMagnitude_mul_ten]

/-- Nothing but digits and points is written. -/
theorem isDigit_or_point_of_positional (hwhole : ∀ c ∈ whole, c.isDigit = true)
    (hfraction : ∀ c ∈ fraction, c.isDigit = true) {c : Char}
    (hc : c ∈ whole ++ fractionText fraction) : c.isDigit = true ∨ c = '.' := by
  obtain ⟨kept, zeros, rfl, htext⟩ := exists_fractionText fraction
  rw [htext, List.mem_append] at hc
  rcases hc with hc | hc
  · exact .inl (hwhole c hc)
  split at hc
  next => cases hc
  next =>
    rcases List.mem_cons.1 hc with hpoint | hc
    · exact .inr hpoint
    · exact .inl (hfraction c (List.mem_append_left _ hc))

/-! ## Decimals -/

/-- The digits of a number with zeros in front. -/
theorem padded_digits {coefficient count : Nat} {padded : Text}
    (h : List.replicate (count - (Text.ofNat coefficient).length) '0' ++ Text.ofNat coefficient =
      padded) :
    count ≤ padded.length ∧ (∀ c ∈ padded, c.isDigit = true) ∧
      Nat.ofDigitChars 10 padded 0 = coefficient := by
  subst h
  refine ⟨?_, ?_, ?_⟩
  · rw [List.length_append, List.length_replicate]
    omega
  · intro c hc
    rcases List.mem_append.1 hc with hc | hc
    · rw [List.eq_of_mem_replicate hc]
      rfl
    · exact Nat.isDigit_of_mem_toDigits (by decide) (by decide) hc
  · rw [Nat.ofDigitChars_append, Nat.ofDigitChars_replicate_zero, Nat.mul_zero]
    exact Nat.ofDigitChars_ten_toDigits

/-- A decimal written in full is digits before and behind a point, which make up its number. -/
theorem Decimal.exists_text (decimal : Decimal) : ∃ whole fraction,
    decimal.text = whole ++ fractionText fraction ∧ whole ≠ [] ∧
      (∀ c ∈ whole, c.isDigit = true) ∧ (∀ c ∈ fraction, c.isDigit = true) ∧
      Decimal.nearestMagnitude ⟨Nat.ofDigitChars 10 (whole ++ fraction) 0, -fraction.length⟩ =
        decimal.nearestMagnitude := by
  obtain ⟨coefficient, exponent⟩ := decimal
  generalize hplaces : (-exponent).toNat = places
  generalize hzeros : exponent.toNat = zeros
  generalize hpadded : List.replicate (places + 1 - (Text.ofNat coefficient).length) '0' ++
    Text.ofNat coefficient = padded
  -- The zeros in front are enough for one digit before the point.
  obtain ⟨hlength, hdigits, hvalue⟩ := padded_digits hpadded
  refine ⟨padded.take (padded.length - places) ++ List.replicate zeros '0',
    padded.drop (padded.length - places), ?_, ?_, ?_, ?_, ?_⟩
  · rw [text, hplaces, hzeros, hpadded]
  · intro hnil
    have hlength := congrArg List.length (List.append_eq_nil_iff.1 hnil).1
    rw [List.length_take, List.length_nil] at hlength
    omega
  · intro c hc
    rcases List.mem_append.1 hc with hc | hc
    · exact hdigits c (List.mem_of_mem_take hc)
    · rw [List.eq_of_mem_replicate hc]
      rfl
  · exact fun c hc => hdigits c (List.mem_of_mem_drop hc)
  · -- Zeros are filled in either before the point or behind it.
    rcases Nat.eq_zero_or_pos zeros with hnone | hsome
    · have hexponent : exponent = -(places : Int) := by omega
      have hbehind : (padded.drop (padded.length - places)).length = places := by
        rw [List.length_drop]
        omega
      rw [hnone, List.replicate_zero, List.append_nil, List.take_append_drop, hvalue, hbehind,
        hexponent]
    · have hnone : places = 0 := by omega
      have hexponent : exponent = (zeros : Int) := by omega
      rw [hnone, Nat.sub_zero, List.take_length, List.drop_length, List.append_nil,
        Nat.ofDigitChars_append, Nat.ofDigitChars_replicate_zero, hvalue, hexponent,
        nearestMagnitude, nearestMagnitude]
      simp [Nat.mul_comm]

/-! ## Magnitudes -/

/-- A finite magnitude is written as digits before and behind a point, which make up its number. -/
theorem exists_magnitudeText {magnitude : Nat} (h : magnitude < infiniteMagnitude) :
    ∃ whole fraction, magnitudeText magnitude = whole ++ fractionText fraction ∧ whole ≠ [] ∧
      (∀ c ∈ whole, c.isDigit = true) ∧ (∀ c ∈ fraction, c.isDigit = true) ∧
      Decimal.nearestMagnitude ⟨Nat.ofDigitChars 10 (whole ++ fraction) 0, -fraction.length⟩ =
        magnitude := by
  rw [magnitudeText, if_neg h.ne]
  split
  next hzero =>
    subst hzero
    exact ⟨['0'], [], rfl, List.cons_ne_nil _ _, List.forall_mem_singleton.2 rfl,
      List.forall_mem_nil _, Decimal.nearestMagnitude_zero 0⟩
  next =>
    obtain ⟨whole, fraction, htext, hne, hwhole, hfraction, hnearest⟩ :=
      (Decimal.shortest magnitude).exists_text
    rw [Decimal.nearestMagnitude_shortest h.le] at hnearest
    exact ⟨whole, fraction, htext, hne, hwhole, hfraction, hnearest⟩

/-- What is written for a finite magnitude is read as this magnitude. -/
theorem ofText?_magnitudeText {magnitude : Nat} (h : magnitude < infiniteMagnitude) :
    ofText? (magnitudeText magnitude) = some (ofMagnitude false magnitude) := by
  obtain ⟨whole, fraction, htext, hne, hwhole, hfraction, hnearest⟩ := exists_magnitudeText h
  rw [htext, ofText?_positional hne hwhole hfraction, hnearest]

/-- A finite magnitude is written in digits and points. -/
theorem magnitudeText_run {magnitude : Nat} (h : magnitude < infiniteMagnitude) :
    magnitudeText magnitude ≠ [] ∧
      ∀ c ∈ magnitudeText magnitude, c.isDigit = true ∨ c = '.' := by
  obtain ⟨whole, fraction, htext, hne, hwhole, hfraction, -⟩ := exists_magnitudeText h
  rw [htext]
  exact ⟨List.append_ne_nil_of_left_ne_nil hne _,
    fun c hc => isDigit_or_point_of_positional hwhole hfraction hc⟩

end ShaderInterface.Number
