import Mathlib.Tactic.Common
import ShaderInterface.Proofs.Arithmetic.Substitution
import ShaderInterface.Proofs.Interface.BlockSpacing
import ShaderInterface.Proofs.Interface.LocationArray

/-!
# The Array Sizes of Members

The array sizes behind the name of a member are computed where they stand, and become part of the name as
numbers in brackets. When the size of the member in bytes is computed, these numbers are read from the
name again. A negative number is written with a sign, which no reader of sizes knows, so that it counts
as one.

## Main results

* `foldDims_of_spaced`: array sizes become numbers in brackets.
* `arrayDims_member`: the numbers are read from the name of the member again.
-/

namespace ShaderInterface.Interface

open ShaderInterface.Text

variable {table : Macro.Table}

/-! ## Computing array sizes -/

theorem foldDims_of_notMem {text : Text} (h : '[' ∉ text) (declaration : Text) :
    foldDims table declaration text = pure [] := by
  rw [foldDims]
  split
  next => rfl
  next found hfound =>
    refine absurd ?_ h
    rw [(eq_of_cut? hfound).1]
    exact List.mem_append_right _ List.mem_cons_self

/-- An array size is folded with those behind it. -/
theorem foldDims_append {before size : Text} (hbefore : '[' ∉ before) (hsize : ']' ∉ size)
    (declaration rest : Text) :
    foldDims table declaration (before ++ '[' :: (size ++ ']' :: rest)) = do
      let folded ←
        if size.trim.isEmpty then pure []
        else ofInt <$> layoutValue table .signed64 size.trim
      let following ← foldDims table declaration rest
      return '[' :: folded ++ ']' :: following := by
  have hopen := cut?_append hbefore (size ++ ']' :: rest)
  have hclose := cut?_append hsize rest
  rw [foldDims]
  split
  next hnone => cases hnone.symm.trans hopen
  next opened hfound =>
    cases hfound.symm.trans hopen
    split
    next hnone => cases hnone.symm.trans hclose
    next hfound =>
      cases hfound.symm.trans hclose
      rfl

/-- A size with blanks around it is computed. -/
theorem Spaced.layoutValue_size {size text : Text} (h : Spaced BlankGap [.size size] text)
    (hsize : ∃ x, Arithmetic.evaluate table size = .ok x) :
    text.trim ≠ [] ∧
      layoutValue table .signed64 text.trim = pure (numberOf table .signed64 size) := by
  obtain ⟨x, hx⟩ := hsize
  have hvalue : Arithmetic.evaluate table text.trim = Arithmetic.evaluate table size := by
    cases h with
    | cons _ hgap _ hend =>
      obtain ⟨before, hbefore, rfl⟩ := hgap
      obtain ⟨after, hafter, rfl⟩ := hend.blankGap
      rw [Arithmetic.evaluate_trim, List.append_nil, ← List.append_assoc,
        Arithmetic.evaluate_surrounded table hbefore hafter]
      rfl
  refine ⟨fun hnil => ?_, ?_⟩
  · rw [hnil, Arithmetic.evaluate_nil, hx] at hvalue
    cases hvalue
  · rw [layoutValue_eq ⟨x, hvalue.trans hx⟩, numberOf, hvalue, ← numberOf]

/-- Array sizes are folded one after the other. -/
theorem foldDims_of_spaced {sizes : List (Option Text)} {text : Text}
    (h : Spaced BlankGap (sizes.flatMap sizeLexemes) text)
    (hsizes : ∀ size, some size ∈ sizes → ∃ x, Arithmetic.evaluate table size = .ok x)
    (declaration : Text) :
    foldDims table declaration text = pure (sizes.flatMap (foldedSize table)) := by
  induction sizes generalizing text with
  | nil =>
    exact foldDims_of_notMem (h.notMem (by decide) List.not_mem_nil) declaration
  | cons size sizes ih =>
    have ih (text : Text) (h : Spaced BlankGap (sizes.flatMap sizeLexemes) text) :=
      ih h fun size hmem => hsizes size (List.mem_cons_of_mem _ hmem)
    rw [List.flatMap_cons, sizeLexemes, List.cons_append, List.append_assoc,
      ← List.nil_append (_ :: _)] at h
    obtain ⟨before, opened, rfl, hbefore, hopened⟩ := h.exists_of_mark
    obtain ⟨inner, rest, rfl, hinner, hrest⟩ := hopened.exists_of_mark
    have hbracket : '[' ∉ before := hbefore.notMem (by decide) List.not_mem_nil
    have hclose : ']' ∉ inner := by
      refine hinner.notMem (by decide) fun hmem => ?_
      cases size <;> simp at hmem
    rw [foldDims_append hbracket hclose, ih rest hrest, List.flatMap_cons]
    have hfolded : foldedSize table size ++ sizes.flatMap (foldedSize table) =
        '[' :: foldedNumber table size ++ ']' :: sizes.flatMap (foldedSize table) := by
      rw [foldedSize, List.cons_append, List.append_assoc]
      rfl
    rw [hfolded]
    cases size with
    | none =>
      obtain ⟨blanks, hblanks, rfl⟩ := hinner.blankGap
      rw [List.append_nil, trim_of_blanks hblanks]
      rfl
    | some size =>
      obtain ⟨hne, hnumber⟩ := hinner.layoutValue_size (hsizes size List.mem_cons_self)
      rw [hnumber, List.isEmpty_eq_false_iff.2 hne]
      rfl

/-! ## Reading numbers -/

theorem isDigit_of_mem_ofNat {c : Char} {n : Nat} (h : c ∈ ofNat n) : c.isDigit = true :=
  Nat.isDigit_of_mem_toDigits (by decide) (by decide) h

theorem notMem_ofInt {c : Char} (hdigit : c.isDigit = false) (hsign : c ≠ '-') (n : Int) :
    c ∉ ofInt n := by
  have hdigits : c ∉ ofNat n.natAbs := fun hmem => by
    rw [isDigit_of_mem_ofNat hmem] at hdigit
    cases hdigit
  rw [ofInt]
  split
  · exact List.not_mem_cons_of_ne_of_not_mem hsign hdigits
  · exact hdigits

/-- What does not start with a plus sign is read as it is. -/
theorem dimension?_eq {text : Text} (h : '+' ∉ text) :
    Member.dimension? text =
      if !text.isEmpty && text.all Char.isDigit && Nat.ofDigitChars 10 text 0 ≤ Member.sizeLimit then
        some (Nat.ofDigitChars 10 text 0)
      else none := by
  have hsign : ['+'].isPrefixOf? text = none := by
    cases text with
    | nil => rfl
    | cons c text =>
      have hc : ('+' == c) = false := beq_eq_false_iff_ne.2 (List.ne_and_not_mem_of_not_mem_cons h).1
      simp [List.isPrefixOf?, hc]
  rw [Member.dimension?, hsign]
  rfl

/-- A number that is written is read again, unless it is negative. -/
theorem dimension?_ofInt {n : Int} (h : n ≤ Member.sizeLimit) :
    Member.dimension? (ofInt n) = if 0 ≤ n then some n.toNat else none := by
  rw [dimension?_eq (notMem_ofInt (by decide) (by decide) n), ofInt]
  rcases Int.lt_or_le n 0 with hnegative | hnatural
  · have hsign : Char.isDigit '-' = false := by decide
    rw [if_pos hnegative, List.all_cons, hsign, Bool.false_and, Bool.and_false, Bool.false_and,
      if_neg (Int.not_le.2 hnegative)]
    rfl
  · have hdigits : (ofNat n.natAbs).all Char.isDigit = true :=
      List.all_eq_true.2 fun c hc => isDigit_of_mem_ofNat hc
    have hnumber : Nat.ofDigitChars 10 (ofNat n.natAbs) 0 = n.toNat := by
      rw [ofNat, Nat.ofDigitChars_ten_toDigits]
      omega
    have hne : (ofNat n.natAbs).isEmpty = false := List.isEmpty_eq_false_iff.2 Nat.toDigits_ne_nil
    have hlimit : n.toNat ≤ Member.sizeLimit := by omega
    rw [if_neg (Int.not_lt.2 hnatural), if_pos hnatural, hdigits, hnumber, hne, decide_eq_true hlimit]
    rfl

/-- The number between brackets is written with digits and a sign, if there is one. -/
theorem notMem_foldedNumber {c : Char} (hdigit : c.isDigit = false) (hsign : c ≠ '-')
    (size : Option Text) : c ∉ foldedNumber table size := by
  cases size with
  | none => exact List.not_mem_nil
  | some size => exact notMem_ofInt hdigit hsign _

/-- The name of a member is divided at its opening brackets. -/
theorem splitOn_foldedSizes {before : Text} (h : '[' ∉ before) (sizes : List (Option Text)) :
    (before ++ sizes.flatMap (foldedSize table)).splitOn '[' =
      before :: sizes.map (foldedNumber table · ++ [']']) := by
  induction sizes generalizing before with
  | nil => rw [List.flatMap_nil, List.append_nil, List.splitOn_eq_singleton h, List.map_nil]
  | cons size sizes ih =>
    have hinner : '[' ∉ foldedNumber table size ++ [']'] := by
      rw [List.mem_append, not_or]
      exact ⟨notMem_foldedNumber (by decide) (by decide) size, by decide⟩
    rw [List.flatMap_cons, foldedSize, List.cons_append,
      List.splitOn_append_cons_self_of_not_mem h, ih hinner, List.map_cons]

theorem unbroken_foldedNumber (size : Option Text) : Unbroken (foldedNumber table size) := by
  intro c hc
  cases hblank : isBlank c with
  | false => rfl
  | true =>
    have hdigit : c.isDigit = false := eq_false_of_isBlank (by decide +kernel) hblank
    have hsign : c ≠ '-' := by
      rintro rfl
      exact absurd hblank (by decide)
    exact absurd hc (notMem_foldedNumber hdigit hsign size)

/-- The number between brackets is read again. -/
theorem dimension?_foldedNumber (size : Option Text) :
    (Member.dimension? (trim ((foldedNumber table size ++ [']']).takeWhile (· != ']')))).getD 1 =
      dimension table size := by
  have hkept : (foldedNumber table size ++ [']']).takeWhile (· != ']') = foldedNumber table size := by
    have hinner : ∀ c ∈ foldedNumber table size, (c != ']') = true :=
      forall_bne_of_notMem (notMem_foldedNumber (by decide) (by decide) size)
    rw [List.takeWhile_append_of_pos hinner, List.takeWhile_cons_of_neg (by decide), List.append_nil]
  rw [hkept, Unbroken.trim_eq (unbroken_foldedNumber size)]
  cases size with
  | none => rfl
  | some size =>
    have hgreatest : numberOf table .signed64 size ≤ 2 ^ 63 - 1 :=
      (numberOf_bounds (by decide) (by decide) size).2
    have hlimit : numberOf table .signed64 size ≤ Member.sizeLimit :=
      Int.le_trans hgreatest (by decide)
    rw [foldedNumber, dimension?_ofInt hlimit, dimension]
    split <;> rfl

/-- The array sizes of a member are read from its name. -/
theorem arrayDims_member {declarator : Declarator} (h : '[' ∉ declarator.name) (type : Text) :
    (declarator.member table type).arrayDims = declarator.sizes.map (dimension table) := by
  have hsplit : (declarator.member table type).name.splitOn '[' =
      declarator.name :: declarator.sizes.map (foldedNumber table · ++ [']']) :=
    splitOn_foldedSizes h declarator.sizes
  rw [Member.arrayDims, hsplit, List.drop_one, List.tail_cons, List.map_map]
  exact List.map_congr_left fun size _ => dimension?_foldedNumber size

end ShaderInterface.Interface
