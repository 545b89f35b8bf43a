import Mathlib.Tactic.Common
import ShaderInterface.Text.Blank
import ShaderInterface.Text.Numeric
import ShaderInterface.Text.Word

/-!
# Kinds of Characters

The kinds of characters that scanners tell apart do not overlap where they must not.

## Main results

* `continuesName_of_opensName`: what opens a name can continue one.
* `continuesName_of_isBlank`, `isWord_of_isBlank`: a blank is no part of a name or a word.
-/

namespace ShaderInterface.Text

variable {c : Char}

/-- What opens a name can continue one. -/
theorem continuesName_of_opensName (h : opensName c = true) : continuesName c = true := by
  rw [opensName, Bool.or_eq_true] at h
  rw [continuesName, isAlphanumeric]
  rcases h with h | h <;> simp [h]

/-- The code points of the blanks. -/
def blankCodes : List Nat :=
  blankRanges.flatMap fun range => List.range' range.1 (range.2 + 1 - range.1)

theorem toNat_mem_blankCodes (h : isBlank c = true) : c.toNat ∈ blankCodes := by
  rw [isBlank, inRanges, List.any_eq_true] at h
  obtain ⟨range, hrange, hbounds⟩ := h
  simp only [Bool.and_eq_true, decide_eq_true_eq] at hbounds
  refine List.mem_flatMap.2 ⟨range, hrange, List.mem_range'_1.2 ⟨hbounds.1, ?_⟩⟩
  omega

/-- There are only finitely many blanks, so that a kind of characters can be tried on all of them. -/
theorem eq_false_of_isBlank {p : Char → Bool} (hcodes : ∀ n ∈ blankCodes, p (Char.ofNat n) = false)
    (h : isBlank c = true) : p c = false := by
  simpa using hcodes c.toNat (toNat_mem_blankCodes h)

/-- A blank is no part of a name. -/
theorem continuesName_of_isBlank (h : isBlank c = true) : continuesName c = false :=
  eq_false_of_isBlank (by decide +kernel) h

/-- A blank is no part of a word. -/
theorem isWord_of_isBlank (h : isBlank c = true) : isWord c = false :=
  eq_false_of_isBlank (by decide +kernel) h

/-- There are only eleven characters in numerals, so that they can be tried one by one. -/
theorem of_isDigit_or_point {p : Char → Prop}
    (hcodes : ∀ n ∈ '.'.toNat :: List.range' '0'.toNat 10, p (Char.ofNat n))
    (h : c.isDigit = true ∨ c = '.') : p c := by
  have hmem : c.toNat ∈ '.'.toNat :: List.range' '0'.toNat 10 := by
    rcases h with hdigit | rfl
    · rw [Char.isDigit, Bool.and_eq_true, decide_eq_true_eq, decide_eq_true_eq] at hdigit
      refine List.mem_cons_of_mem _ (List.mem_range'_1.2 ⟨hdigit.1, Nat.lt_succ_of_le hdigit.2⟩)
    · exact List.mem_cons_self ..
  simpa using hcodes c.toNat hmem

theorem isBlank_of_isWord (h : isWord c = true) : isBlank c = false := by
  cases hblank : isBlank c with
  | false => rfl
  | true => cases h.symm.trans (isWord_of_isBlank hblank)

theorem opensName_of_isBlank (h : isBlank c = true) : opensName c = false := by
  cases hopens : opensName c with
  | false => rfl
  | true => cases (continuesName_of_opensName hopens).symm.trans (continuesName_of_isBlank h)

end ShaderInterface.Text
