import Mathlib.Algebra.BigOperators.Ring.List
import Mathlib.Algebra.Order.BigOperators.GroupWithZero.List
import Mathlib.Algebra.Order.Ring.Nat
import Mathlib.Data.List.TakeWhile
import Mathlib.Tactic.Common
import ShaderInterface.Interface.Slot

/-!
# Sizes of Members

The size of a member is the size of an element multiplied by one array size after the other, and the
greatest size stands for every product that exceeds it. As the search for the product ends there, an
array of no elements takes the greatest size if the sizes in front of its first zero are too great.
In every other case the size is the exact product, cut to the greatest size, so that the order of the
array sizes does not matter.

## Main definitions

* `Member.exactSize`: the size of a member if there were no greatest size.
* `Member.ZeroInTime`: the sizes in front of a zero are not too great.

## Main results

* `Member.boundedProduct_eq`: the product up to the first zero decides whether there is one.
* `Member.size_eq_min_iff`: the size is exact up to the greatest size unless a zero comes too late.
* `Slot.stride_eq_min`: the sizes of members add up, up to the greatest size.
* `sizes_eq_min`: the sizes of members and slots.
* `not_forall_size`: a zero can come too late.
-/

namespace ShaderInterface.Interface

namespace Member

variable {member : Member} {size : Nat} {dims : List Nat}

/-- The bytes that a member takes if there is no greatest size. -/
def exactSize (member : Member) : Nat :=
  member.elementSize * member.arrayDims.prod

/-- If an array has no elements, then the array sizes in front of its first zero are not too great. -/
def ZeroInTime (member : Member) : Prop :=
  0 ∈ member.arrayDims →
    member.elementSize * (member.arrayDims.takeWhile (· ≠ 0)).prod ≤ sizeLimit

instance (member : Member) : Decidable member.ZeroInTime :=
  inferInstanceAs (Decidable (_ → _))

/-! ## Members -/

theorem boundedProduct_cons (size dim : Nat) (dims : List Nat) :
    boundedProduct size (dim :: dims) =
      if size * dim ≤ sizeLimit then boundedProduct (size * dim) dims else none := by
  rw [boundedProduct, List.foldlM_cons]
  split <;> rfl

/-- There is a product if the one up to the first zero is not too great. -/
theorem boundedProduct_eq (h : size ≤ sizeLimit) :
    boundedProduct size dims =
      if size * (dims.takeWhile (· ≠ 0)).prod ≤ sizeLimit then some (size * dims.prod)
      else none := by
  induction dims generalizing size with
  | nil =>
    rw [List.takeWhile_nil, List.prod_nil, Nat.mul_one, if_pos h]
    rfl
  | cons dim dims ih =>
    rw [boundedProduct_cons]
    by_cases hzero : dim = 0
    · -- From here on every product is zero.
      rw [hzero, List.takeWhile_cons_of_neg (by simp), List.prod_nil, Nat.mul_one, if_pos h,
        Nat.mul_zero, if_pos (Nat.zero_le _), ih (Nat.zero_le _), Nat.zero_mul,
        if_pos (Nat.zero_le _), Nat.zero_mul, List.prod_cons, Nat.zero_mul, Nat.mul_zero]
    · have hprod : 0 < (dims.takeWhile (· ≠ 0)).prod := by
        refine List.prod_pos fun other hother => Nat.pos_of_ne_zero ?_
        simpa using List.mem_takeWhile_imp hother
      rw [List.takeWhile_cons_of_pos (by simpa using hzero), List.prod_cons, List.prod_cons,
        ← Nat.mul_assoc, ← Nat.mul_assoc]
      by_cases hlimit : size * dim ≤ sizeLimit
      · rw [if_pos hlimit, ih hlimit]
      · -- The sizes that follow make the product no smaller.
        have hle : size * dim ≤ size * dim * (dims.takeWhile (· ≠ 0)).prod :=
          Nat.le_mul_of_pos_right _ hprod
        rw [if_neg hlimit, if_neg fun hall => hlimit (hle.trans hall)]

/-- An element is smaller than the greatest size. -/
theorem elementSize_le (member : Member) : member.elementSize ≤ sizeLimit := by
  have hsizes : ∀ entry ∈ typeSizes, entry.2 ≤ sizeLimit := by decide
  rw [elementSize]
  cases hlookup : typeSizes.lookup member.type with
  | none => decide
  | some size =>
    obtain ⟨before, after, htypes, -⟩ := List.lookup_eq_some_iff.1 hlookup
    refine hsizes (member.type, size) ?_
    rw [htypes]
    exact List.mem_append_right _ List.mem_cons_self

/-- The size of a member is exact or the greatest one. -/
theorem size_eq (member : Member) :
    member.size =
      if member.elementSize * (member.arrayDims.takeWhile (· ≠ 0)).prod ≤ sizeLimit then
        member.exactSize
      else sizeLimit := by
  rw [Member.size, boundedProduct_eq member.elementSize_le, exactSize]
  split <;> rfl

/-- The size of a member is exact up to the greatest size unless a zero comes too late, and then it is
the greatest size. -/
theorem size_eq_min_iff (member : Member) :
    (member.size = min sizeLimit member.exactSize ↔ member.ZeroInTime) ∧
      (¬ member.ZeroInTime → member.size = sizeLimit) := by
  rw [size_eq, ZeroInTime]
  by_cases hzero : 0 ∈ member.arrayDims
  · -- The exact size is zero.
    have hexact : member.exactSize = 0 := by
      rw [exactSize, List.prod_eq_zero_iff.2 hzero, Nat.mul_zero]
    rw [hexact, Nat.min_zero]
    split
    next hlimit => exact ⟨iff_of_true rfl fun _ => hlimit, fun hlate => absurd (fun _ => hlimit) hlate⟩
    next hlimit =>
      exact ⟨iff_of_false (by decide) fun hall => hlimit (hall hzero), fun _ => rfl⟩
  · have hall : member.arrayDims.takeWhile (· ≠ 0) = member.arrayDims := by
      refine List.takeWhile_eq_self_iff.2 fun dim hdim => decide_eq_true ?_
      rintro rfl
      exact hzero hdim
    rw [hall, ← exactSize]
    refine ⟨iff_of_true ?_ fun hmem => absurd hmem hzero, fun hlate => ?_⟩
    · split <;> omega
    · exact absurd (fun hmem => absurd hmem hzero) hlate

/-- The order of the array sizes makes no difference to the exact size. -/
theorem exactSize_eq_of_perm {first second : Member} (htype : first.type = second.type)
    (hdims : first.arrayDims.Perm second.arrayDims) : first.exactSize = second.exactSize := by
  rw [exactSize, exactSize, elementSize, elementSize, htype, hdims.prod_eq]

end Member

/-! ## Slots -/

/-- Adding sizes up to the greatest one is cutting their sum to it. -/
theorem foldl_min_add {α : Type} (limit : Nat) (size : α → Nat) (items : List α) {total : Nat}
    (h : total ≤ limit) :
    items.foldl (fun total item => min (total + size item) limit) total =
      min limit (total + (items.map size).sum) := by
  induction items generalizing total with
  | nil => exact (Nat.min_eq_right h).symm
  | cons item items ih =>
    rw [List.foldl_cons, ih (Nat.min_le_right _ _), List.map_cons, List.sum_cons]
    omega

/-- Cutting the summands makes no difference to a sum that is cut. -/
theorem min_sum_map_min {α : Type} (limit : Nat) (size : α → Nat) (items : List α) :
    min limit (items.map fun item => min limit (size item)).sum =
      min limit (items.map size).sum := by
  induction items with
  | nil => rfl
  | cons item items ih =>
    rw [List.map_cons, List.sum_cons, List.map_cons, List.sum_cons]
    omega

/-- The bytes that members take add up to the greatest size at most. -/
theorem Slot.stride_eq_min (slot : Slot) :
    slot.stride = min Member.sizeLimit (slot.members.map Member.size).sum := by
  rw [Slot.stride, foldl_min_add _ _ _ (Nat.zero_le _), Nat.zero_add]

/-- The size of a member is the product of the size of an element and the array sizes, cut to the
greatest size, if and only if no zero comes too late; otherwise it is the greatest size. Where no zero
does, the order of the array sizes does not matter. The bytes of a slot are the sum of the sizes of its
members, and of these products where no zero comes too late, cut in the same way. -/
theorem sizes_eq_min (member other : Member) (slot : Slot) :
    ((member.size = min (2 ^ 64 - 1) (member.elementSize * member.arrayDims.prod) ↔
        member.ZeroInTime) ∧
      (¬ member.ZeroInTime → member.size = 2 ^ 64 - 1)) ∧
    (member.type = other.type → member.arrayDims.Perm other.arrayDims →
      member.ZeroInTime → other.ZeroInTime → member.size = other.size) ∧
    slot.capacity = slot.stride ∧
    slot.stride = min (2 ^ 64 - 1) (slot.members.map Member.size).sum ∧
    ((∀ member ∈ slot.members, member.ZeroInTime) →
      slot.stride = min (2 ^ 64 - 1)
        (slot.members.map fun member => member.elementSize * member.arrayDims.prod).sum) := by
  have hlimit : Member.sizeLimit = 2 ^ 64 - 1 := rfl
  rw [← hlimit]
  refine ⟨member.size_eq_min_iff, fun htype hdims hmember hother => ?_, rfl, slot.stride_eq_min,
    fun hmembers => ?_⟩
  · rw [member.size_eq_min_iff.1.2 hmember, other.size_eq_min_iff.1.2 hother,
      Member.exactSize_eq_of_perm htype hdims]
  · have hsizes : slot.members.map Member.size =
        slot.members.map fun member => min Member.sizeLimit member.exactSize :=
      List.map_congr_left fun member hmember => member.size_eq_min_iff.1.2 (hmembers member hmember)
    rw [slot.stride_eq_min, hsizes, min_sum_map_min]
    rfl

/-- A block of two grids and an array without elements. -/
def exampleGrids : Slot :=
  { Slot.plain "Grids".toList [] .buffer with
    members := [⟨"float".toList, "cells[4][3]".toList⟩, ⟨"float".toList, "columns[3][4]".toList⟩,
      ⟨"vec3".toList, "none[2][0]".toList⟩] }

theorem sizes_exampleGrids :
    (∀ member ∈ exampleGrids.members, member.ZeroInTime) ∧
      exampleGrids.stride = 96 ∧ exampleGrids.capacity = 96 ∧
      Member.size ⟨"float".toList, "cells[4][3]".toList⟩ =
        Member.size ⟨"float".toList, "columns[3][4]".toList⟩ := by
  have htime : ∀ member ∈ exampleGrids.members, member.ZeroInTime := by decide
  obtain ⟨-, horder, hcapacity, -, hstride⟩ :=
    sizes_eq_min ⟨"float".toList, "cells[4][3]".toList⟩ ⟨"float".toList, "columns[3][4]".toList⟩
      exampleGrids
  have hsum : min (2 ^ 64 - 1)
      (exampleGrids.members.map fun member => member.elementSize * member.arrayDims.prod).sum =
        96 := by
    decide
  have hbytes : exampleGrids.stride = 96 := (hstride htime).trans hsum
  exact ⟨htime, hbytes, hcapacity.trans hbytes,
    horder rfl (by decide) (by decide) (by decide)⟩

/-- An array without elements takes the greatest size if its zero comes too late. -/
theorem not_forall_size : ¬ ∀ member : Member,
    member.size = min (2 ^ 64 - 1) (member.elementSize * member.arrayDims.prod) := by
  intro h
  have hlate := h ⟨"float".toList, "x[9223372036854775808][4][0]".toList⟩
  exact absurd hlate (by decide)

end ShaderInterface.Interface
