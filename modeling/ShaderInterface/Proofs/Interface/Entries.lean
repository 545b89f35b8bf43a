import ShaderInterface.Interface.Reflection
import ShaderInterface.Proofs.Arithmetic.Numeral
import ShaderInterface.Proofs.Interface.Stripping
import ShaderInterface.Proofs.Outcome

/-!
# The Entries of Declarations

What the interface of a shader says about each of its declarations. The numbers of an entry are the
last values given to their keys, and an array with a location becomes one entry for each element. As
long as everything that matters has a value, reflection gives these entries and nothing else.

## Main definitions

* `Variable.entry`, `Variable.entries`: the entries of a variable or block.
* `Variable.Evaluates`: everything that is computed for the entries has a value.
* `Variable.Sound`: moreover, there are enough locations for an array.

## Main results

* `foldlM_assign`: the last value of a key wins.
* `reflect_source`: the interface of a source consists of the entries of the declarations that are
  written in it.
-/

namespace ShaderInterface.Interface

open ShaderInterface.Text

variable {table : Macro.Table} {pairs : List (Text × Text)} {key : Text}

/-! ## What is declared -/

/-- The number that a text stands for. -/
def numberOf (table : Macro.Table) (range : Number.IntRange) (text : Text) : Int :=
  ((Arithmetic.evaluate table text).toOption.map (Number.truncate range)).getD Slot.undeclared

/-- The number that some pairs give to a key: that of the last value of the key, or the one that stands
for no value. -/
def lastNumber (table : Macro.Table) (pairs : List (Text × Text)) (key : Text) : Int :=
  ((pairs.reverse.lookup key).map (numberOf table .signed32)).getD Slot.undeclared

/-- The keys whose values become numbers of an entry. -/
def slotKeys : List Text :=
  ["location".toList, "binding".toList, "set".toList, "input_attachment_index".toList]

namespace Variable

/-- How many elements are declared: one, unless a size is given that is more. -/
def count (table : Macro.Table) (declared : Variable) : Nat :=
  match declared.array.map trim with
  | none | some [] => 1
  | some size => (max (numberOf table .signed64 size) 1).toNat

/-- The entry of a variable or block, before the elements of an array get their own. -/
def entry (table : Macro.Table) (declared : Variable) : Slot where
  location := lastNumber table (attributePairs declared.attributes) "location".toList
  binding := lastNumber table (attributePairs declared.attributes) "binding".toList
  set := lastNumber table (attributePairs declared.attributes) "set".toList
  inputAttachment :=
    lastNumber table (attributePairs declared.attributes) "input_attachment_index".toList
  count := declared.count table
  type := declared.type
  name :=
    if declared.name.isSome ∧ declared.type ≠ "flat".toList then declared.name.getD []
    else declared.instanceName.getD []
  storage := declared.storage
  members := (blockMembers table (declared.block.getD [])).outcome.toOption.getD []

/-- Whether a declaration is an array that takes a location for each element. -/
def isLocationArray (table : Macro.Table) (declared : Variable) : Bool :=
  declared.hasLocation && 1 < declared.count table

/-- The entries of a variable or block. -/
def entries (table : Macro.Table) (declared : Variable) : List Slot :=
  if declared.isLocationArray table then
    (List.range (declared.count table)).map fun (k : Nat) =>
      { declared.entry table with location := (declared.entry table).location + k, count := 1 }
  else [declared.entry table]

/-- The numbers of a declaration have values, and its members are well formed. -/
structure Evaluates (table : Macro.Table) (declared : Variable) : Prop where
  attributes : ∀ pair ∈ attributePairs declared.attributes, pair.1 ∈ slotKeys →
    ∃ x, Arithmetic.evaluate table pair.2 = .ok x
  array : ∀ size, declared.array.map trim = some size → size ≠ [] →
    ∃ x, Arithmetic.evaluate table size = .ok x
  members : ∃ members, (blockMembers table (declared.block.getD [])).outcome = .ok members

/-- The numbers of a declaration have values, its members are well formed, and there are enough
locations for an array. -/
structure Sound (table : Macro.Table) (declared : Variable) : Prop extends
    Evaluates table declared where
  locations : declared.isLocationArray table →
    declared.count table ≤ locationArrayLimit ∧
      (declared.entry table).location + declared.count table - 1 ≤ greatestLocation

end Variable

/-- The entries of a declaration: none if it applies to the whole stage. -/
def Declaration.entries (table : Macro.Table) : Declaration → List Slot
  | .stageWide .. => []
  | .interface declared => declared.entries table

/-! ## Numbers -/

/-- The number of a text that has a value. -/
theorem layoutValue_eq {range : Number.IntRange} {text : Text}
    (h : ∃ x, Arithmetic.evaluate table text = .ok x) :
    layoutValue table range text = pure (numberOf table range text) := by
  obtain ⟨x, hx⟩ := h
  rw [layoutValue, numberOf, hx]
  rfl

/-- What the last value of a key among some pairs is read as, or `before` if there is none. -/
def lastOf {α : Type} (read : Text → α) (before : α) (pairs : List (Text × Text)) (key : Text) : α :=
  ((pairs.reverse.lookup key).map read).getD before

theorem lastOf_append {α : Type} (read : Text → α) (before : α) (first second : List (Text × Text)) :
    lastOf read (lastOf read before first key) second key =
      lastOf read before (first ++ second) key := by
  rw [lastOf, lastOf, lastOf, List.reverse_append, List.lookup_append]
  cases second.reverse.lookup key <;> rfl

theorem lastOf_singleton {α : Type} (read : Text → α) (before : α) (pair : Text × Text) :
    lastOf read before [pair] key = if pair.1 = key then read pair.2 else before := by
  rw [lastOf, List.reverse_singleton]
  split
  next h =>
    subst h
    rw [List.lookup_cons_self]
    rfl
  next h =>
    rw [List.lookup_cons, beq_false_of_ne (Ne.symm h)]
    rfl

/-- The number that a key has after some pairs, when it was `before` in front of them. -/
def numberAfter (table : Macro.Table) (before : Int) (pairs : List (Text × Text)) (key : Text) :
    Int :=
  ((pairs.reverse.lookup key).map (numberOf table .signed32)).getD before

theorem numberAfter_append (before : Int) (first second : List (Text × Text)) :
    numberAfter table (numberAfter table before first key) second key =
      numberAfter table before (first ++ second) key :=
  lastOf_append _ before first second

theorem numberAfter_singleton (before : Int) (pair : Text × Text) :
    numberAfter table before [pair] key =
      if pair.1 = key then numberOf table .signed32 pair.2 else before :=
  lastOf_singleton _ before pair

/-- A slot with the numbers that it has after some pairs. -/
def Slot.after (table : Macro.Table) (slot : Slot) (pairs : List (Text × Text)) : Slot :=
  { slot with
    location := numberAfter table slot.location pairs "location".toList
    binding := numberAfter table slot.binding pairs "binding".toList
    set := numberAfter table slot.set pairs "set".toList
    inputAttachment :=
      numberAfter table slot.inputAttachment pairs "input_attachment_index".toList }

/-- A single attribute changes the number of its key and no other. -/
theorem assign_eq (slot : Slot) {pair : Text × Text}
    (h : pair.1 ∈ slotKeys → ∃ x, Arithmetic.evaluate table pair.2 = .ok x) :
    slot.assign table pair = pure (slot.after table [pair]) := by
  obtain ⟨key, value⟩ := pair
  unfold Slot.assign Slot.after
  simp only [numberAfter_singleton]
  by_cases hkey : key ∈ slotKeys
  · rw [layoutValue_eq (h hkey)]
    simp only [slotKeys, List.mem_cons, List.not_mem_nil, or_false] at hkey
    rcases hkey with rfl | rfl | rfl | rfl <;> rfl
  · -- The value of another key need not be a number, and is not looked at.
    simp only [slotKeys, List.mem_cons, List.not_mem_nil, or_false, not_or] at hkey
    obtain ⟨hlocation, hbinding, hset, hattachment⟩ := hkey
    simp only [if_neg hlocation, if_neg hbinding, if_neg hset, if_neg hattachment]

/-- The last value of a key wins. -/
theorem foldlM_assign (slot : Slot) (h : ∀ pair ∈ pairs, pair.1 ∈ slotKeys →
    ∃ x, Arithmetic.evaluate table pair.2 = .ok x) :
    pairs.foldlM (Slot.assign table) slot = pure (slot.after table pairs) := by
  induction pairs generalizing slot with
  | nil => rfl
  | cons pair pairs ih =>
    rw [List.forall_mem_cons] at h
    rw [List.foldlM_cons, assign_eq slot h.1]
    -- The numbers after the first attribute are those before the others.
    refine (ih (slot.after table [pair]) h.2).trans ?_
    simp only [Slot.after, numberAfter_append, List.singleton_append]

/-! ## Entries -/

namespace Variable

variable {declared : Variable}

/-- The name of an entry is the one that is shown. -/
theorem shownName_eq (table : Macro.Table) (declared : Variable) :
    declared.shownName = (declared.entry table).name := by
  unfold shownName entry
  rcases declared.name with - | name
  · rfl
  · by_cases h : declared.type = "flat".toList
    · simp only [h, if_true, ne_eq, not_true_eq_false, and_false, if_false]
    · simp only [h, if_false, ne_eq, not_false_eq_true, Option.isSome_some, and_self, if_true,
        Option.getD_some]

/-- The elements of an array are counted. -/
theorem outcome_elementCount (h : declared.Evaluates table) :
    (declared.elementCount table).outcome = .ok (declared.count table) := by
  unfold elementCount count
  rcases harray : declared.array.map trim with - | - | ⟨c, tail⟩
  · rfl
  · rfl
  · have hsize : layoutValue table .signed64 (c :: tail) = _ :=
      layoutValue_eq (h.array _ harray (List.cons_ne_nil _ _))
    simp only [hsize, pure_bind]
    -- A notice about an empty array leaves the outcome as it is.
    show (ite _ _ _ : Report Nat).outcome = _
    split <;> rfl

/-- The elements of an array have locations if there are not too many and the last one has. -/
theorem elementsFit_iff (h : 1 ≤ declared.count table) :
    (declared.entry table).elementsFit = true ↔ declared.count table ≤ locationArrayLimit ∧
      (declared.entry table).location + declared.count table - 1 ≤ greatestLocation := by
  have hcount : (declared.entry table).count = declared.count table := rfl
  rw [Slot.elementsFit, Bool.and_eq_true, decide_eq_true_eq, decide_eq_true_eq, hcount]
  refine and_congr_right fun _ => ?_
  omega

/-- The entries of an array are its elements. -/
theorem expand_eq (h : declared.Sound table) :
    declared.expand (declared.entry table) = pure (declared.entries table) := by
  unfold expand entries
  show (if declared.isLocationArray table = true then _ else _) = _
  by_cases harray : declared.isLocationArray table = true
  · have hcount : 1 < declared.count table := by
      rw [isLocationArray, Bool.and_eq_true, decide_eq_true_eq] at harray
      exact harray.2
    rw [if_pos harray, if_pos harray,
      if_pos ((elementsFit_iff (Nat.le_of_lt hcount)).2 (h.locations harray))]
    rfl
  · rw [if_neg harray, if_neg harray]

/-- The entry is what the attributes and the members make of a plain slot. -/
theorem after_plain {members : List Member}
    (hmembers : (blockMembers table (declared.block.getD [])).outcome = .ok members) :
    { Slot.after table { Slot.plain declared.type declared.shownName declared.storage with
        count := declared.count table } (attributePairs declared.attributes) with members } =
      declared.entry table := by
  have hentry : (declared.entry table).members = members := by
    rw [entry, hmembers]
    rfl
  rw [shownName_eq table, ← hentry]
  rfl

/-- The slots of a declaration are what its entry is expanded to. -/
theorem outcome_slots_eq_expand (h : declared.Evaluates table) :
    (declared.slots table).outcome = (declared.expand (declared.entry table)).outcome := by
  obtain ⟨members, hmembers⟩ := h.members
  unfold slots
  rw [← after_plain hmembers, Report.outcome_bind, outcome_elementCount h]
  show (_ >>= _ : Report (List Slot)).outcome = _
  rw [foldlM_assign _ h.attributes, pure_bind, Report.outcome_bind, hmembers]
  rfl

/-- The slots of a declaration are its entries. -/
theorem outcome_slots (h : declared.Sound table) :
    (declared.slots table).outcome = .ok (declared.entries table) :=
  (outcome_slots_eq_expand h.toEvaluates).trans (congrArg Report.outcome (expand_eq h))

end Variable

/-- The slots of a variable or block stand in front of those of the declarations behind it. -/
theorem outcome_slotsOf_interface (table : Macro.Table) (declared : Variable)
    (rest : List Declaration) :
    (slotsOf table (.interface declared :: rest)).outcome =
      (declared.slots table).outcome >>= fun slots =>
        (slotsOf table rest).outcome.map (slots ++ ·) := by
  rw [slotsOf, Report.outcome_bind]
  refine congrArg _ (funext fun slots => ?_)
  rw [Report.outcome_bind]
  cases (slotsOf table rest).outcome <;> rfl

/-- The slots of declarations are their entries, in order. -/
theorem outcome_slotsOf {declarations : List Declaration}
    (h : ∀ declared, .interface declared ∈ declarations → declared.Sound table) :
    (slotsOf table declarations).outcome =
      .ok (declarations.flatMap (Declaration.entries table)) := by
  induction declarations with
  | nil => rfl
  | cons declaration rest ih =>
    have hrest := ih fun declared hmem => h declared (List.mem_cons_of_mem _ hmem)
    cases declaration with
    | stageWide attributes storage => exact hrest
    | interface declared =>
      -- As no declaration fails, the slots of the others are added to these.
      have hdeclared := Variable.outcome_slots (h declared (List.mem_cons_self ..))
      rw [outcome_slotsOf_interface, hdeclared, hrest]
      rfl

/-- The interface of a source consists of the entries of the variables and blocks that are declared in
it, in order, and of nothing else. It is required that everything that matters for the entries has a
value. -/
theorem reflect_source (table : Macro.Table) (declarations : List Declaration) (source : Text)
    (hsource : SourceOf declarations source)
    (hsound : ∀ declared, .interface declared ∈ declarations → declared.Sound table) :
    (reflect table source).outcome =
      .ok (declarations.flatMap (Declaration.entries table)) := by
  rw [reflect, hsource.declarations_eq]
  exact outcome_slotsOf hsound

/-- Without a block there are no members. -/
theorem blockMembers_nil (table : Macro.Table) : blockMembers table [] = pure [] := by
  rw [blockMembers, stripComments_nil]
  rfl

/-- An array with a location. -/
def exampleColors : Variable where
  attributes := " location = 2 ".toList
  storage := .output
  type := "vec4".toList
  name := some "colors".toList
  block := none
  instanceName := none
  array := some " 2".toList

/-- A block with the name of an instance. -/
def exampleGlobals : Variable where
  attributes := "std140".toList
  storage := .uniform
  type := "Globals".toList
  name := none
  block := some " float time; ".toList
  instanceName := some "globals".toList
  array := none

/-- Declarations of all kinds. -/
def exampleDeclarations : List Declaration :=
  [.stageWide "triangles".toList .input, .interface exampleColors, .interface exampleGlobals]

/-- The number two has a value. -/
theorem evaluate_two :
    ∃ x, Arithmetic.evaluate .empty "2".toList = .ok x ∧ Number.wholePart x = 2 :=
  ⟨_, Arithmetic.evaluate_of_numeral (by decide) (by decide) rfl (by decide), by decide +kernel⟩

/-- The number two is itself in every range that it belongs to. -/
theorem numberOf_two {range : Number.IntRange} (h : range.clamp 2 = 2) :
    numberOf .empty range "2".toList = 2 := by
  obtain ⟨x, hx, hwhole⟩ := evaluate_two
  rw [numberOf, hx]
  show range.clamp (Number.wholePart x) = 2
  rw [hwhole, h]

/-- The size of the array and its first location are known. -/
theorem entry_exampleColors :
    exampleColors.entry .empty =
      { Slot.plain "vec4".toList "colors".toList .output with location := 2, count := 2 } := by
  have hlocation : numberOf .empty .signed32 "2".toList = 2 := numberOf_two (by decide)
  have hcount : numberOf .empty .signed64 "2".toList = 2 := numberOf_two (by decide)
  unfold Variable.entry
  rw [Slot.plain, Slot.mk.injEq]
  refine ⟨hlocation, rfl, rfl, rfl, ?_, rfl, by decide, rfl, ?_⟩
  · show (max (numberOf .empty .signed64 "2".toList) 1).toNat = 2
    rw [hcount]
    rfl
  · show (blockMembers .empty []).outcome.toOption.getD [] = []
    rw [blockMembers_nil]
    rfl

theorem count_exampleColors : exampleColors.count .empty = 2 :=
  congrArg Slot.count entry_exampleColors

theorem members_exampleGlobals :
    (blockMembers .empty " float time; ".toList).outcome =
      .ok [⟨"float".toList, "time".toList⟩] := by
  decide +kernel

theorem sound_exampleColors : exampleColors.Sound .empty := by
  obtain ⟨x, hx, -⟩ := evaluate_two
  refine ⟨⟨?_, ?_, ⟨[], congrArg Report.outcome (blockMembers_nil _)⟩⟩, fun _ => ?_⟩
  · intro pair hpair _
    obtain rfl : pair = ("location".toList, "2".toList) := List.mem_singleton.1 hpair
    exact ⟨x, hx⟩
  · intro size hsize _
    obtain rfl : "2".toList = size := Option.some_inj.1 hsize
    exact ⟨x, hx⟩
  · rw [entry_exampleColors, count_exampleColors]
    decide

theorem sound_exampleGlobals : exampleGlobals.Sound .empty := by
  refine ⟨⟨?_, ?_, ⟨_, members_exampleGlobals⟩⟩, ?_⟩
  · intro pair hpair
    cases hpair
  · intro size hsize
    cases hsize
  · intro harray
    cases harray

theorem reflect_exampleDeclarations :
    (reflect .empty (write exampleDeclarations)).outcome = .ok
      [{ Slot.plain "vec4".toList "colors".toList .output with location := 2 },
        { Slot.plain "vec4".toList "colors".toList .output with location := 3 },
        { Slot.plain "Globals".toList "globals".toList .uniform with
          members := [⟨"float".toList, "time".toList⟩] }] := by
  have hsound : ∀ declared, .interface declared ∈ exampleDeclarations → declared.Sound .empty := by
    intro declared hmem
    rcases List.mem_cons.1 hmem with hfirst | hmem
    · cases hfirst
    rcases List.mem_cons.1 hmem with hsecond | hmem
    · cases hsecond
      exact sound_exampleColors
    · cases List.mem_singleton.1 hmem
      exact sound_exampleGlobals
  have hcolors : exampleColors.entries .empty =
      [{ Slot.plain "vec4".toList "colors".toList .output with location := 2 },
        { Slot.plain "vec4".toList "colors".toList .output with location := 3 }] := by
    rw [Variable.entries, Variable.isLocationArray, entry_exampleColors, count_exampleColors]
    rfl
  have hglobals : exampleGlobals.entries .empty =
      [{ Slot.plain "Globals".toList "globals".toList .uniform with
        members := [⟨"float".toList, "time".toList⟩] }] := by
    show [{ Slot.plain _ _ _ with
      members := (blockMembers .empty " float time; ".toList).outcome.toOption.getD [] }] = _
    rw [members_exampleGlobals]
    rfl
  refine (reflect_source .empty exampleDeclarations _ (sourceOf_write (by decide)) hsound).trans ?_
  show Except.ok (exampleColors.entries .empty ++ (exampleGlobals.entries .empty ++ [])) = _
  rw [hcolors, hglobals]
  rfl

end ShaderInterface.Interface
