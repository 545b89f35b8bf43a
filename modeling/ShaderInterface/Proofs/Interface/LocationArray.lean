import Mathlib.Algebra.Group.Int.Defs
import Mathlib.Algebra.Group.Nat.Defs
import ShaderInterface.Proofs.Interface.Entries

/-!
# Arrays with a Location

An array whose location is given takes one location for each element. It becomes as many slots, or
none at all if it is too long or its last location would be too great. This module tells the cases
apart and shows that the numbers involved, which are unbounded here, are held by the words that a
machine computes them with: sizes are words of 64 bits, locations are signed words of 32 bits, and
neither a sum nor a conversion between the two goes wrong.

## Main definitions

* `HeldByWords`: what is computed before the locations are checked.
* `ElementsHeldByWords`: what is computed for each element behind the check.

## Main results

* `location_bounds`, `count_bounds`: the ranges of locations and sizes, whatever is declared.
* `Variable.expand_eq_single`, `Variable.expand_of_array`: what a declaration becomes.
* `reflect_array`: what a variable or block adds to the interface of a source.
-/

namespace ShaderInterface.Interface

open ShaderInterface.Text

variable {table : Macro.Table} {declared : Variable}

/-! ## Ranges -/

/-- The words that hold the size of an array and its first location hold these numbers exactly. -/
structure HeldByWords (first : Int) (count : Nat) : Prop where
  /-- The size is found as a word with a sign. -/
  signedSize : (Int64.ofNat count).toInt = count
  size : (UInt64.ofNat count).toNat = count
  /-- The distance from the first element to the last one. -/
  distance : (UInt64.ofNat count - 1).toNat = count - 1
  location : (Int32.ofInt first).toInt = first

/-- The words in which the locations of elements are added up hold these numbers exactly. -/
structure ElementsHeldByWords (first : Int) (count : Nat) : Prop where
  /-- The size is cut down to a word of the kind that locations are. -/
  size : (UInt64.ofNat count).toUInt32.toInt32.toInt = count
  distance : ∀ k < count, (Int32.ofNat k).toInt = k
  location : ∀ k < count, (Int32.ofInt first + Int32.ofNat k).toInt = first + k

/-- A number that is moved into a range lies in it. -/
theorem clamp_bounds {range : Number.IntRange} (h : range.least ≤ range.greatest) (n : Int) :
    range.least ≤ range.clamp n ∧ range.clamp n ≤ range.greatest := by
  rw [Number.IntRange.clamp]
  omega

/-- The number of a text lies in its range. -/
theorem numberOf_bounds {range : Number.IntRange} (hleast : range.least ≤ Slot.undeclared)
    (hgreatest : Slot.undeclared ≤ range.greatest) (text : Text) :
    range.least ≤ numberOf table range text ∧ numberOf table range text ≤ range.greatest := by
  rw [numberOf]
  rcases (Arithmetic.evaluate table text).toOption with - | x
  · exact ⟨hleast, hgreatest⟩
  · exact clamp_bounds (Int.le_trans hleast hgreatest) _

/-- Locations lie in the range of words of 32 bits. -/
theorem location_bounds (table : Macro.Table) (declared : Variable) :
    -2 ^ 31 ≤ (declared.entry table).location ∧ (declared.entry table).location ≤ 2 ^ 31 - 1 := by
  show -2 ^ 31 ≤ lastNumber table _ _ ∧ lastNumber table _ _ ≤ 2 ^ 31 - 1
  rw [lastNumber]
  rcases (attributePairs declared.attributes).reverse.lookup "location".toList with - | value
  · show -2 ^ 31 ≤ Slot.undeclared ∧ Slot.undeclared ≤ 2 ^ 31 - 1
    decide
  · exact numberOf_bounds (by decide) (by decide) value

/-- There is always an element, and there are not more than a word can count. -/
theorem count_bounds (table : Macro.Table) (declared : Variable) :
    1 ≤ declared.count table ∧ declared.count table < 2 ^ 63 := by
  unfold Variable.count
  split
  · decide
  · decide
  next size _ _ =>
    have hgreatest : numberOf table .signed64 size ≤ 2 ^ 63 - 1 :=
      (numberOf_bounds (by decide) (by decide) size).2
    omega

theorem heldByWords {first : Int} {count : Nat} (hfirst : -2 ^ 31 ≤ first ∧ first ≤ 2 ^ 31 - 1)
    (hcount : 1 ≤ count ∧ count < 2 ^ 63) : HeldByWords first count where
  signedSize := Int64.toInt_ofNat_of_lt hcount.2
  size := UInt64.toNat_ofNat_of_lt' (hcount.2.trans (by decide))
  distance := by
    have hsize : (UInt64.ofNat count).toNat = count :=
      UInt64.toNat_ofNat_of_lt' (hcount.2.trans (by decide))
    have hone : 1 ≤ UInt64.ofNat count := by
      rw [UInt64.le_iff_toNat_le, hsize]
      exact hcount.1
    rw [UInt64.toNat_sub_of_le _ _ hone, hsize]
    rfl
  location := Int32.toInt_ofInt_of_le hfirst.1 (by omega)

theorem elementsHeldByWords {first : Int} {count : Nat} (hfirst : -2 ^ 31 ≤ first)
    (hlimit : count ≤ 4096) (hgreatest : first + count - 1 ≤ 2 ^ 31 - 1) :
    ElementsHeldByWords first count where
  size := by
    rw [UInt64.toUInt32_ofNat', UInt32.toInt32_ofNat']
    exact Int32.toInt_ofNat_of_lt (by omega)
  distance k hk := Int32.toInt_ofNat_of_lt (by omega)
  location k hk := by
    -- The sum lies between the first location and the last one, so that it does not wrap around.
    rw [Int32.toInt_add, Int32.toInt_ofInt_of_le hfirst (by omega),
      Int32.toInt_ofNat_of_lt (by omega)]
    exact Int.bmod_eq_of_le (by omega) (by omega)

/-! ## Expansion -/

namespace Variable

/-- What has no location of its own, or only one element, becomes one slot. -/
theorem expand_eq_single (h : declared.hasLocation = false ∨ declared.count table = 1) :
    (declared.expand (declared.entry table)).outcome = .ok [declared.entry table] := by
  rw [expand, if_neg]
  · rfl
  rw [Bool.and_eq_true, decide_eq_true_eq]
  rintro ⟨hlocation, hcount⟩
  rcases h with h | h
  · exact Bool.false_ne_true (h.symm.trans hlocation)
  · exact absurd hcount (h ▸ Nat.lt_irrefl 1)

/-- An array with a location becomes a slot for each element, if the elements have locations. -/
theorem expand_of_array (hlocation : declared.hasLocation = true)
    (hcount : 2 ≤ declared.count table) :
    (declared.expand (declared.entry table)).outcome =
      if declared.count table ≤ 4096 ∧
          (declared.entry table).location + declared.count table - 1 ≤ 2 ^ 31 - 1 then
        .ok ((List.range (declared.count table)).map fun (k : Nat) =>
          { declared.entry table with
            location := (declared.entry table).location + k, count := 1 })
      else
        .error (.locationsOutOfRange (declared.count table) (declared.entry table).location
          (declared.entry table).fullName (declared.text (declared.entry table).fullName)) := by
  have harray : (declared.hasLocation && decide (1 < (declared.entry table).count)) = true := by
    rw [Bool.and_eq_true, decide_eq_true_eq]
    exact ⟨hlocation, hcount⟩
  have hfit := elementsFit_iff (Nat.le_of_lt hcount)
  rw [expand, if_pos harray, apply_ite Report.outcome]
  exact if_congr hfit rfl rfl

end Variable

/-- The slots of declarations stand behind those of the declarations before them. -/
theorem outcome_slotsOf_append {before : List Declaration} {earlier : List Slot}
    (h : (slotsOf table before).outcome = .ok earlier) (after : List Declaration) :
    (slotsOf table (before ++ after)).outcome = (slotsOf table after).outcome.map (earlier ++ ·) := by
  induction before generalizing earlier with
  | nil =>
    cases h
    rw [List.nil_append]
    cases (slotsOf table after).outcome <;> rfl
  | cons declaration rest ih =>
    cases declaration with
    | stageWide attributes storage => exact ih h
    | interface declared =>
      rw [outcome_slotsOf_interface] at h
      obtain ⟨slots, hslots, h⟩ := result_of_bind h
      cases hrest : (slotsOf table rest).outcome with
      | error fault =>
        rw [hrest] at h
        cases h
      | ok following =>
        rw [hrest] at h
        cases h
        rw [List.cons_append, outcome_slotsOf_interface, hslots, ih hrest]
        cases (slotsOf table after).outcome with
        | error fault => rfl
        | ok later => exact congrArg Except.ok (List.append_assoc slots following later).symm

/-- The slots of a variable or block stand behind those of the declarations before it. -/
theorem outcome_reflect_of_slots {source : Text} {before after : List Declaration}
    {earlier : List Slot} (hsource : declarations source = before ++ .interface declared :: after)
    (hbefore : (slotsOf table before).outcome = .ok earlier) :
    (reflect table source).outcome = (declared.slots table).outcome >>= fun slots =>
      (slotsOf table after).outcome.map fun later => earlier ++ slots ++ later := by
  rw [reflect, hsource, outcome_slotsOf_append hbefore, outcome_slotsOf_interface]
  cases (declared.slots table).outcome with
  | error fault => rfl
  | ok slots =>
    cases (slotsOf table after).outcome with
    | error fault => rfl
    | ok later => exact congrArg Except.ok (List.append_assoc earlier slots later).symm

/-- What a variable or block adds to the interface of a source, behind the slots of the declarations
before it. Without a location it is one slot, which counts its elements. With a location there is a
slot for each element, one location further than the one before, unless there are more than 4096
elements or the last location is no signed word of 32 bits; then the declaration is at fault. -/
theorem reflect_array {source : Text} {before after : List Declaration} {earlier : List Slot}
    (hsource : declarations source = before ++ .interface declared :: after)
    (hbefore : (slotsOf table before).outcome = .ok earlier) (h : declared.Evaluates table) :
    (1 ≤ declared.count table ∧
      HeldByWords (declared.entry table).location (declared.count table)) ∧
    (declared.hasLocation = false ∨ declared.count table = 1 →
      (reflect table source).outcome = (slotsOf table after).outcome.map fun later =>
        earlier ++ [declared.entry table] ++ later) ∧
    (declared.hasLocation = true → 2 ≤ declared.count table → declared.count table ≤ 4096 →
      (declared.entry table).location + declared.count table - 1 ≤ 2 ^ 31 - 1 →
      ElementsHeldByWords (declared.entry table).location (declared.count table) ∧
      (reflect table source).outcome = (slotsOf table after).outcome.map fun later =>
        earlier ++ (List.range (declared.count table)).map (fun (k : Nat) =>
          { declared.entry table with
            location := (declared.entry table).location + k, count := 1 }) ++ later) ∧
    (declared.hasLocation = true → 2 ≤ declared.count table →
      4096 < declared.count table ∨
        2 ^ 31 - 1 < (declared.entry table).location + declared.count table - 1 →
      (reflect table source).outcome =
        .error (.locationsOutOfRange (declared.count table) (declared.entry table).location
          (declared.entry table).fullName (declared.text (declared.entry table).fullName))) := by
  have hlocation := location_bounds table declared
  have hcount := count_bounds table declared
  have hslots : (reflect table source).outcome =
      (declared.expand (declared.entry table)).outcome >>= fun slots =>
        (slotsOf table after).outcome.map fun later => earlier ++ slots ++ later := by
    rw [outcome_reflect_of_slots hsource hbefore, Variable.outcome_slots_eq_expand h]
  refine ⟨⟨hcount.1, heldByWords hlocation hcount⟩, fun hsingle => ?_,
    fun hgiven harray hlimit hgreatest => ⟨elementsHeldByWords hlocation.1 hlimit hgreatest, ?_⟩,
    fun hgiven harray hout => ?_⟩
  · rw [hslots, Variable.expand_eq_single hsingle]
    rfl
  · rw [hslots, Variable.expand_of_array hgiven harray, if_pos ⟨hlimit, hgreatest⟩]
    rfl
  · rw [hslots, Variable.expand_of_array hgiven harray, if_neg]
    · rfl
    · rintro ⟨hlimit, hgreatest⟩
      omega

/-- An array whose first element has the greatest location. -/
def exampleTopmost : Variable :=
  { exampleColors with attributes := "location = 2147483647".toList }

/-- The greatest location is a number of its range. -/
theorem evaluate_greatest :
    ∃ x, Arithmetic.evaluate .empty "2147483647".toList = .ok x ∧
      Number.wholePart x = 2147483647 :=
  ⟨_, Arithmetic.evaluate_of_numeral (by decide) (by decide) rfl (by decide), by decide +kernel⟩

theorem location_exampleTopmost : (exampleTopmost.entry .empty).location = 2147483647 := by
  obtain ⟨x, hx, hwhole⟩ := evaluate_greatest
  show numberOf .empty .signed32 "2147483647".toList = 2147483647
  rw [numberOf, hx]
  show Number.IntRange.signed32.clamp (Number.wholePart x) = 2147483647
  rw [hwhole]
  decide

theorem evaluates_exampleTopmost : exampleTopmost.Evaluates .empty := by
  obtain ⟨x, hx, -⟩ := evaluate_greatest
  have hcolors := sound_exampleColors.toEvaluates
  refine ⟨fun pair hpair _ => ?_, hcolors.array, hcolors.members⟩
  obtain rfl : pair = ("location".toList, "2147483647".toList) := List.mem_singleton.1 hpair
  exact ⟨x, hx⟩

/-- Two elements from location 2 on take the locations 2 and 3. From the greatest location on there is
no place for two elements. -/
theorem reflect_exampleArrays :
    (reflect .empty (write [.interface exampleColors])).outcome = .ok
        [{ Slot.plain "vec4".toList "colors".toList .output with location := 2 },
          { Slot.plain "vec4".toList "colors".toList .output with location := 3 }] ∧
      (reflect .empty (write [.interface exampleTopmost])).outcome = .error
        (.locationsOutOfRange 2 2147483647 "colors".toList
          "layout(location = 2147483647) out vec4 colors".toList) := by
  have hdeclared {declared : Variable} (h : ∀ declaration ∈ [Declaration.interface declared],
      declaration.WellFormed ∧ ∀ token ∈ declaration.allTokens, token.WellFormed) :
      declarations (write [.interface declared]) = [] ++ .interface declared :: [] :=
    (sourceOf_write h).declarations_eq
  have hnone : (slotsOf .empty []).outcome = .ok [] := rfl
  have hcolors := (reflect_array (hdeclared (by decide)) hnone
    sound_exampleColors.toEvaluates).2.2.1
  have htopmost := (reflect_array (hdeclared (by decide)) hnone evaluates_exampleTopmost).2.2.2
  have hcount : exampleTopmost.count .empty = 2 := count_exampleColors
  rw [entry_exampleColors, count_exampleColors] at hcolors
  rw [location_exampleTopmost, hcount] at htopmost
  exact ⟨(hcolors rfl (by decide) (by decide) (by decide)).2,
    htopmost rfl (by decide) (.inr (by decide))⟩

end ShaderInterface.Interface
