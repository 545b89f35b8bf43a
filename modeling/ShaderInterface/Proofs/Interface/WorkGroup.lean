import ShaderInterface.Proofs.Interface.Comments
import ShaderInterface.Proofs.Interface.Entries

/-!
# Work Groups

Two kinds of declarations stand in a source, and each kind is read as if the other one were not there:
the interface consists of the entries of variables and blocks, the work group is stated by the
attributes of the input as a whole. A compute shader has both.

## Main definitions

* `Declaration.axisPairs`: what a declaration says about the axes of a work group.
* `WorkGroup.stated`: the work group that some pairs state.

## Main results

* `slotsOf_filter`, `WorkGroup.ofDeclarations?_filter`: declarations of the other kind do not matter.
* `WorkGroup.foldlM_after`, `WorkGroup.foldlM_fault`: the last value of an axis wins, and every value
  must be one.
* `reflect_apart`: all of this for sources, and for compute shaders.
-/

namespace ShaderInterface.Interface

open ShaderInterface.Text

variable {table : Macro.Table} {pairs : List (Text × Text)} {source : Text}

/-! ## Declarations of the other kind -/

/-- Whether a declaration applies to the whole stage. -/
def Declaration.isStageWide : Declaration → Bool
  | .stageWide .. => true
  | .interface _ => false

/-- The interface needs no declarations that apply to the whole stage. -/
theorem slotsOf_filter (table : Macro.Table) (declared : List Declaration) :
    slotsOf table (declared.filter (!·.isStageWide)) = slotsOf table declared := by
  fun_induction slotsOf table declared with
  | case1 => rfl
  | case2 attributes storage rest ih => exact ih
  | case3 found rest ih =>
    show slotsOf table (.interface found :: rest.filter (!·.isStageWide)) = _
    rw [slotsOf, ih]

/-! ## What a work group is stated by -/

/-- What a declaration says about the axes of a work group: the attributes of the input as a whole that
have the key of an axis. -/
def Declaration.axisPairs : Declaration → List (Text × Text)
  | .stageWide attributes .input =>
    (attributePairs attributes).filter fun pair => WorkGroup.axisKeys.contains pair.1
  | _ => []

/-- Whether a declaration says anything about a work group. -/
def Declaration.statesWorkGroup (declaration : Declaration) : Bool :=
  !declaration.axisPairs.isEmpty

/-- A work group with the sizes that it has after some pairs. -/
def WorkGroup.after (table : Macro.Table) (group : WorkGroup) (pairs : List (Text × Text)) :
    WorkGroup :=
  let size := lastOf fun value => (numberOf table .unsigned32 value).toNat
  { x := size group.x pairs "local_size_x".toList
    y := size group.y pairs "local_size_y".toList
    z := size group.z pairs "local_size_z".toList }

/-- The work group that some pairs state: for every axis the last size that is given, or one. -/
def WorkGroup.stated (table : Macro.Table) (pairs : List (Text × Text)) : WorkGroup :=
  single.after table pairs

namespace WorkGroup

/-! ## Attributes -/

/-- Attributes that are not about an axis change nothing. -/
theorem foldlM_filter (table : Macro.Table) (group : WorkGroup) (pairs : List (Text × Text)) :
    (pairs.filter fun pair => axisKeys.contains pair.1).foldlM (assign table) group =
      pairs.foldlM (assign table) group := by
  induction pairs generalizing group with
  | nil => rfl
  | cons pair pairs ih =>
    by_cases hkey : pair.1 ∈ axisKeys
    · rw [List.filter_cons_of_pos (by simpa using hkey), List.foldlM_cons, List.foldlM_cons]
      simp only [ih]
    · have hassign : group.assign table pair = pure group := by
        simp only [axisKeys, List.mem_cons, List.not_mem_nil, or_false, not_or] at hkey
        obtain ⟨hx, hy, hz⟩ := hkey
        simp only [assign, if_neg hx, if_neg hy, if_neg hz]
      rw [List.filter_cons_of_neg (by simpa using hkey), List.foldlM_cons, hassign, pure_bind, ih]

/-- An attribute about an axis changes its size and no other. -/
theorem assign_eq (group : WorkGroup) {pair : Text × Text} (hkey : pair.1 ∈ axisKeys)
    (h : ∃ x, Arithmetic.evaluate table pair.2 = .ok x) :
    group.assign table pair = pure (group.after table [pair]) := by
  obtain ⟨key, value⟩ := pair
  unfold assign after
  simp only [lastOf_singleton, layoutValue_eq h]
  simp only [axisKeys, List.mem_cons, List.not_mem_nil, or_false] at hkey
  rcases hkey with rfl | rfl | rfl <;> rfl

/-- An attribute about an axis whose value is no number is a fault. -/
theorem assign_of_error (group : WorkGroup) {pair : Text × Text} {cause : Arithmetic.Fault}
    (hkey : pair.1 ∈ axisKeys) (h : Arithmetic.evaluate table pair.2 = .error cause) :
    (group.assign table pair).outcome = .error (.invalidLayoutValue pair.2 cause) := by
  have hvalue : (layoutValue table .unsigned32 pair.2).outcome =
      .error (.invalidLayoutValue pair.2 cause) := by
    rw [layoutValue, h]
    rfl
  obtain ⟨key, value⟩ := pair
  unfold assign
  simp only [axisKeys, List.mem_cons, List.not_mem_nil, or_false] at hkey
  rcases hkey with rfl | rfl | rfl <;> simp [hvalue, Except.map]

/-- The last value of an axis wins. -/
theorem foldlM_after (group : WorkGroup)
    (h : ∀ pair ∈ pairs, pair.1 ∈ axisKeys ∧ ∃ x, Arithmetic.evaluate table pair.2 = .ok x) :
    pairs.foldlM (assign table) group = pure (group.after table pairs) := by
  induction pairs generalizing group with
  | nil => rfl
  | cons pair pairs ih =>
    rw [List.forall_mem_cons] at h
    rw [List.foldlM_cons, assign_eq group h.1.1 h.1.2]
    -- The sizes after the first attribute are those before the others.
    refine (ih (group.after table [pair]) h.2).trans ?_
    simp only [after, lastOf_append, List.singleton_append]

/-- Every value of an axis must be a number, also where another one comes behind it. -/
theorem foldlM_fault (group : WorkGroup) (hkeys : ∀ pair ∈ pairs, pair.1 ∈ axisKeys)
    (h : ∃ pair ∈ pairs, ∃ cause, Arithmetic.evaluate table pair.2 = .error cause) :
    ∃ pair ∈ pairs, ∃ cause, Arithmetic.evaluate table pair.2 = .error cause ∧
      (pairs.foldlM (assign table) group).outcome = .error (.invalidLayoutValue pair.2 cause) := by
  induction pairs generalizing group with
  | nil =>
    obtain ⟨pair, hmem, -⟩ := h
    cases hmem
  | cons first pairs ih =>
    rw [List.forall_mem_cons] at hkeys
    cases hfirst : Arithmetic.evaluate table first.2 with
    | error cause =>
      refine ⟨first, List.mem_cons_self, cause, hfirst, ?_⟩
      rw [List.foldlM_cons, Report.outcome_bind, assign_of_error group hkeys.1 hfirst]
      rfl
    | ok x =>
      -- The first value is a number, and so it is one of the others that is not.
      obtain ⟨pair, hmem, cause, hcause⟩ := h
      have hbehind : pair ∈ pairs := by
        rcases List.mem_cons.1 hmem with rfl | hbehind
        · cases hfirst.symm.trans hcause
        · exact hbehind
      obtain ⟨fault, hfault, reason, hreason, hfold⟩ :=
        ih (group.after table [first]) hkeys.2 ⟨pair, hbehind, cause, hcause⟩
      refine ⟨fault, List.mem_cons_of_mem first hfault, reason, hreason, ?_⟩
      rw [List.foldlM_cons, assign_eq group hkeys.1 ⟨x, hfirst⟩, pure_bind, hfold]

/-! ## Declarations -/

theorem statesWorkGroup_input (attributes : Text) :
    (Declaration.stageWide attributes .input).statesWorkGroup =
      (attributePairs attributes).any fun pair => pair.1 ∈ axisKeys := by
  rw [Bool.eq_iff_iff]
  simp [Declaration.statesWorkGroup, Declaration.axisPairs]

/-- The first declaration that says anything about a work group states it. -/
theorem ofDeclarations?_eq (table : Macro.Table) (declared : List Declaration) :
    ofDeclarations? table declared =
      match declared.find? Declaration.statesWorkGroup with
      | none => pure none
      | some declaration => some <$> declaration.axisPairs.foldlM (assign table) single := by
  induction declared with
  | nil => rfl
  | cons declaration rest ih =>
    cases declaration with
    | interface found => exact ih
    | stageWide attributes storage =>
      -- Only the input as a whole states the work group.
      cases storage with
      | input =>
        rw [ofDeclarations?_input, ← statesWorkGroup_input]
        by_cases hstates : (Declaration.stageWide attributes .input).statesWorkGroup = true
        · rw [List.find?_cons_of_pos hstates, if_pos hstates]
          simp only [Declaration.axisPairs, foldlM_filter]
        · rw [List.find?_cons_of_neg hstates, if_neg hstates, ih]
      | output | uniform | buffer | storageBuffer => exact ih

/-- The work group needs no variables and blocks. -/
theorem ofDeclarations?_filter (table : Macro.Table) (declared : List Declaration) :
    ofDeclarations? table (declared.filter (·.isStageWide)) = ofDeclarations? table declared := by
  have hstates (declaration : Declaration) :
      (declaration.isStageWide && declaration.statesWorkGroup) = declaration.statesWorkGroup := by
    cases declaration <;> rfl
  rw [ofDeclarations?_eq, ofDeclarations?_eq, List.find?_filter]
  simp only [Bool.decide_and, Bool.decide_eq_true, hstates]

end WorkGroup

/-! ## Sources -/

theorem WorkGroup.axisPairs_keys (declaration : Declaration) :
    ∀ pair ∈ declaration.axisPairs, pair.1 ∈ axisKeys := by
  intro pair hmem
  unfold Declaration.axisPairs at hmem
  split at hmem
  · simpa using (List.mem_filter.1 hmem).2
  · cases hmem

/-- The outcome for a source of which the declarations are known. -/
theorem outcome_reflectWorkGroup {declared : List Declaration} (h : SourceOf declared source) :
    (reflectWorkGroup table source).outcome =
      match declared.find? Declaration.statesWorkGroup with
      | none => .ok none
      | some declaration =>
        (declaration.axisPairs.foldlM (WorkGroup.assign table) .single).outcome.map some := by
  rw [reflectWorkGroup, h.declarations_eq, WorkGroup.ofDeclarations?_eq]
  cases declared.find? Declaration.statesWorkGroup with
  | none => rfl
  | some declaration => exact Report.outcome_map some _

/-- A compute shader is reflected by reading both kinds of declarations, the work group first. -/
theorem outcome_reflectCompute (table : Macro.Table) (source : Text) :
    (reflectCompute table source).outcome = do
      let group ← (reflectWorkGroup table source).outcome
      let slots ← (reflect table source).outcome
      return (group.getD .absent, slots.map fun slot => { slot with storage := .storageBuffer }) := by
  rw [reflectCompute, Report.outcome_bind]
  -- The notice about a missing work group is no part of the outcome.
  congr 1
  funext group
  split <;> simp only [Report.outcome_bind, Report.outcome_notice] <;> rfl

/-- Declarations that apply to the whole stage and declarations of variables and blocks do not
interfere, and what a compute shader declares is found by reading both.

* The interface of a source stays the same, with all its faults and notices, when what applies to the
  whole stage is removed.
* The work group stays the same when all variables and blocks are removed.
* It is stated by the first declaration that says anything about it. For each axis the last size that is
  given holds, cut toward zero and moved into the range, and one if no size is given. Every size that is
  given must have a value.
* A compute shader is reflected when its work group and its interface are, and is made up of them. -/
theorem reflect_apart (table : Macro.Table) :
    (∀ declared source other, SourceOf declared source →
      SourceOf (declared.filter (!·.isStageWide)) other →
        reflect table other = reflect table source) ∧
    (∀ declared source other, SourceOf declared source →
      SourceOf (declared.filter (·.isStageWide)) other →
        reflectWorkGroup table other = reflectWorkGroup table source) ∧
    (∀ declared source, SourceOf declared source →
      (declared.find? Declaration.statesWorkGroup = none →
        (reflectWorkGroup table source).outcome = .ok none) ∧
      ∀ declaration, declared.find? Declaration.statesWorkGroup = some declaration →
        ((∀ pair ∈ declaration.axisPairs, ∃ x, Arithmetic.evaluate table pair.2 = .ok x) →
          (reflectWorkGroup table source).outcome =
            .ok (some (WorkGroup.stated table declaration.axisPairs))) ∧
        ((∃ pair ∈ declaration.axisPairs, ∃ cause,
            Arithmetic.evaluate table pair.2 = .error cause) →
          ∃ pair ∈ declaration.axisPairs, ∃ cause,
            Arithmetic.evaluate table pair.2 = .error cause ∧
            (reflectWorkGroup table source).outcome =
              .error (.invalidLayoutValue pair.2 cause))) ∧
    ∀ source,
      ((∃ result, (reflectCompute table source).outcome = .ok result) ↔
        (∃ group, (reflectWorkGroup table source).outcome = .ok group) ∧
          ∃ slots, (reflect table source).outcome = .ok slots) ∧
      ∀ group slots, (reflectWorkGroup table source).outcome = .ok group →
        (reflect table source).outcome = .ok slots →
          (reflectCompute table source).outcome = .ok (group.getD .absent,
            slots.map fun slot => { slot with storage := .storageBuffer }) := by
  refine ⟨?_, ?_, ?_, ?_⟩
  · intro declared source other hsource hother
    rw [reflect, reflect, hsource.declarations_eq, hother.declarations_eq, slotsOf_filter]
  · intro declared source other hsource hother
    rw [reflectWorkGroup, reflectWorkGroup, hsource.declarations_eq, hother.declarations_eq,
      WorkGroup.ofDeclarations?_filter]
  · intro declared source hsource
    rw [outcome_reflectWorkGroup hsource]
    constructor
    · intro hnone
      rw [hnone]
    · intro declaration hfind
      have hkeys := WorkGroup.axisPairs_keys declaration
      rw [hfind]
      constructor
      · intro hvalues
        have hpairs := fun pair hmem => And.intro (hkeys pair hmem) (hvalues pair hmem)
        simp only [WorkGroup.foldlM_after .single hpairs]
        rfl
      · intro herror
        obtain ⟨pair, hmem, cause, hcause, hfold⟩ := WorkGroup.foldlM_fault .single hkeys herror
        refine ⟨pair, hmem, cause, hcause, ?_⟩
        simp only [hfold]
        rfl
  · intro source
    rw [outcome_reflectCompute]
    refine ⟨⟨?_, ?_⟩, ?_⟩
    · rintro ⟨result, hresult⟩
      obtain ⟨group, hgroup, hresult⟩ := result_of_bind hresult
      obtain ⟨slots, hslots, -⟩ := result_of_bind hresult
      exact ⟨⟨group, hgroup⟩, slots, hslots⟩
    · rintro ⟨⟨group, hgroup⟩, slots, hslots⟩
      rw [hgroup, hslots]
      exact ⟨_, rfl⟩
    · intro group slots hgroup hslots
      rw [hgroup, hslots]
      rfl

/-- Declarations of a compute shader. The first one says nothing about a work group. -/
def exampleCompute : List Declaration :=
  [.stageWide "early".toList .input, .interface exampleGlobals,
    .stageWide "local_size_z = 2, local_size_x=2".toList .input,
    .stageWide "local_size_y=2".toList .input]

theorem reflect_exampleCompute :
    reflect .empty (write (exampleCompute.filter (!·.isStageWide))) =
        reflect .empty (write exampleCompute) ∧
      reflectWorkGroup .empty (write (exampleCompute.filter (·.isStageWide))) =
        reflectWorkGroup .empty (write exampleCompute) ∧
      (reflectWorkGroup .empty (write exampleCompute)).outcome = .ok (some ⟨2, 1, 2⟩) ∧
      (reflectCompute .empty (write exampleCompute)).outcome =
        .ok (⟨2, 1, 2⟩, (exampleGlobals.entries .empty).map fun slot =>
          { slot with storage := .storageBuffer }) := by
  have hsource : SourceOf exampleCompute (write exampleCompute) := sourceOf_write (by decide)
  obtain ⟨hinterface, hgroup, hstated, hcompute⟩ := reflect_apart .empty
  have hvalues : ∀ pair ∈ [("local_size_z".toList, "2".toList), ("local_size_x".toList, "2".toList)],
      ∃ x, Arithmetic.evaluate .empty pair.2 = .ok x := by
    obtain ⟨x, hx, -⟩ := evaluate_two
    intro pair hmem
    have hpair : pair.2 = "2".toList := by
      rcases List.mem_cons.1 hmem with rfl | hmem
      · rfl
      · rw [List.mem_singleton.1 hmem]
    exact ⟨x, hpair ▸ hx⟩
  have hsizes : WorkGroup.stated .empty
      [("local_size_z".toList, "2".toList), ("local_size_x".toList, "2".toList)] = ⟨2, 1, 2⟩ := by
    have htwo : numberOf .empty .unsigned32 "2".toList = 2 := numberOf_two (by decide)
    show (⟨(numberOf .empty .unsigned32 "2".toList).toNat, 1,
      (numberOf .empty .unsigned32 "2".toList).toNat⟩ : WorkGroup) = _
    rw [htwo]
    rfl
  have hfound : (reflectWorkGroup .empty (write exampleCompute)).outcome =
      .ok (some ⟨2, 1, 2⟩) := by
    have hfind : exampleCompute.find? Declaration.statesWorkGroup =
      some (.stageWide "local_size_z = 2, local_size_x=2".toList .input) := by decide
    rw [← hsizes]
    exact ((hstated _ _ hsource).2 _ hfind).1 hvalues
  have hslots : (reflect .empty (write exampleCompute)).outcome =
      .ok (exampleGlobals.entries .empty) := by
    have hsound : ∀ declared, .interface declared ∈ exampleCompute → declared.Sound .empty := by
      intro declared hmem
      have hdeclared : declared = exampleGlobals := by simpa [exampleCompute] using hmem
      rw [hdeclared]
      exact sound_exampleGlobals
    rw [reflect, hsource.declarations_eq, outcome_slotsOf hsound]
    show Except.ok ([] ++ (exampleGlobals.entries .empty ++ [])) = _
    rw [List.append_nil, List.nil_append]
  exact ⟨hinterface _ _ _ hsource (sourceOf_write (by decide)),
    hgroup _ _ _ hsource (sourceOf_write (by decide)), hfound, (hcompute _).2 _ _ hfound hslots⟩

end ShaderInterface.Interface
