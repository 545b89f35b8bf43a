import Mathlib.Data.List.Chain
import ShaderInterface.Proofs.Preprocessing.Visits

/-!
# Frames

The groups that are open are frames inside each other, and all of them stand in the text around them, which
is one more frame. Whatever lines are read, and whether their groups are balanced or not, a frame is read
only inside one that is read, and of the branches of a group at most one is read. So nothing happens in a
frame that is not read, except that its group may go on to a branch which is.

A line changes the innermost frame only: it opens a group inside, goes on to another branch, or closes the
group. Each statement on the frames is shown for these changes, and then for any number of lines.

## Main definitions

* `State.frames`: the groups that are open and the text around them.
* `State.WellStacked`: what holds of the frames between two lines.
* `State.moments`: the branches of a group from line to line, and whether they are read.

## Main results

* `changes_of_step`: how a line changes the frames.
* `wellStacked_of_run`: the frames are well stacked after any lines.
* `exists_readBranch`: at most one branch of a group is read.
* `step_of_disabled`: what a line does where lines are not read.
* `frames_of_run`: all of this after any lines.
-/

namespace ShaderInterface.Preprocessing

open ShaderInterface.Text

/-- The frame of the text around all groups, which is always read. -/
def outermost : Group := ⟨true, true, ⟨[], 0⟩⟩

/-- Whether a directive starts another branch of a group. -/
def startsBranch : Directive → Bool
  | .elseIf _ | .otherwise => true
  | _ => false

namespace State

/-- The frames of a state, the innermost one first: the groups that are open, and the text around them. -/
def frames (state : State) : List Group :=
  state.groups ++ [outermost]

/-- Whether a line is read as one that starts another branch of the innermost group. -/
def divides (state : State) (raw : Text) : Bool :=
  state.continued.isNone && startsBranch (directiveOf raw)

/-- What holds of the frames between two lines. -/
structure WellStacked (state : State) : Prop where
  /-- A frame is read only inside one that is read. -/
  nested : state.frames.IsChain fun inner outer => inner.enabled = true → outer.enabled = true
  /-- The branch that is read has been taken. -/
  taken : ∀ frame ∈ state.frames, frame.enabled = true → frame.taken = true
  /-- A definition goes on only where lines are read. -/
  continued : state.continued ≠ none → enabled state.groups = true

/-- The group that stands in `depth` others, if so many groups are open. -/
def groupAt? (state : State) (depth : Nat) : Option Group :=
  state.groups.reverse[depth]?

/-- The life of the group that stands in `depth` others, in front of each line and behind the last one until
the group is closed: which of its branches it is in, and whether that is read. The present branch has the
number `branch`. -/
def moments (depth branch : Nat) (state : State) : List (Site × Text) → List (Nat × Bool)
  | [] =>
    match state.groupAt? depth with
    | none => []
    | some group => [(branch, group.enabled)]
  | (site, raw) :: rest =>
    match state.groupAt? depth with
    | none => []
    | some group =>
      (branch, group.enabled) ::
        match (state.step site raw).outcome with
        | .error _ => []
        | .ok (_, next) =>
          let own := state.divides raw && state.groups.length == depth + 1
          next.moments depth (if own then branch + 1 else branch) rest

/-- How a line changes the frames: it keeps them, or it opens a group, goes on to another branch of the
innermost group, or closes that group. A branch is taken only where it can be. -/
inductive Changes (state : State) : (divided : Bool) → (next : State) → Prop where
  | keeps {next : State} : next.groups = state.groups →
      (next.continued ≠ none → state.continued ≠ none ∨ enabled state.groups = true) →
      Changes state false next
  | opens {next : State} {site : Site} {taken : Bool} :
      next.groups = ⟨taken, taken, site⟩ :: state.groups →
      (taken = true → enabled state.groups = true) → next.continued = none → Changes state false next
  | divides {next : State} {group : Group} {outer : List Group} {taken : Bool} :
      state.groups = group :: outer →
      next.groups = { group with enabled := taken, taken := group.taken || taken } :: outer →
      (taken = true → enabled outer = true ∧ group.taken = false) → next.continued = none →
      Changes state true next
  | closes {next : State} {group : Group} : state.groups = group :: next.groups →
      next.continued = none → Changes state false next

variable {state next last : State} {site : Site} {raw : Text} {kept : Option Text} {table : Macro.Table}

/-! ## One line -/

/-- A line that continues a definition divides nothing. -/
theorem divides_of_continued {name : Text} (h : state.continued = some name) :
    state.divides raw = false := by
  rw [divides, h]
  rfl

theorem divides_of_ready (h : state.continued = none) :
    state.divides raw = startsBranch (directiveOf raw) := by
  rw [divides, h]
  rfl

/-- A comment line divides nothing. -/
theorem divides_of_comment (h : isCommentLine raw.trim = true) : state.divides raw = false := by
  rw [divides, directiveOf_comment h]
  exact Bool.and_false _

/-- A branch is taken only where its condition matters. -/
theorem exists_of_map_taken {α : Type} {matters : Bool} {answer : Except Fault Bool} {f : Bool → α}
    {result : α} (h : (if matters then answer else .ok false).map f = .ok result) :
    ∃ taken, f taken = result ∧ (taken = true → matters = true) := by
  cases matters with
  | false =>
    cases h
    exact ⟨false, rfl, id⟩
  | true =>
    cases answer with
    | error fault => cases h
    | ok taken =>
      cases h
      exact ⟨taken, rfl, fun _ => rfl⟩

/-- A line that opens a group takes its first branch only where lines are read. -/
theorem changes_of_opens (hcontinued : state.continued = none)
    (hopens : opensGroup (directiveOf raw) = true)
    (h : (state.step site raw).outcome = .ok (kept, next)) : Changes state false next := by
  rw [step_open hcontinued hopens] at h
  obtain ⟨taken, hresult, henabled⟩ := exists_of_map_taken h
  cases hresult
  exact .opens rfl henabled hcontinued

/-- A line that belongs to a group is read only inside one. -/
theorem exists_group_of_step {word : Text} (hcontinued : state.continued = none)
    (hword : innerWord? (directiveOf raw) = some word)
    (h : (state.step site raw).outcome = .ok (kept, next)) :
    ∃ group outer, state.groups = group :: outer := by
  rcases hgroups : state.groups with - | ⟨group, outer⟩
  · rw [step_unmatched hcontinued hgroups hword] at h
    cases h
  · exact ⟨group, outer, rfl⟩

/-- A line that starts another branch takes it only where none was taken before, in a group that stands
where lines are read. -/
theorem changes_of_startsBranch (hcontinued : state.continued = none)
    (hstarts : startsBranch (directiveOf raw) = true)
    (h : (state.step site raw).outcome = .ok (kept, next)) : Changes state true next := by
  have heligible {group : Group} {outer : List Group} (h : (enabled outer && !group.taken) = true) :
      enabled outer = true ∧ group.taken = false := by
    rwa [Bool.and_eq_true, Bool.not_eq_true'] at h
  cases hdirective : directiveOf raw with
  | elseIf condition =>
    obtain ⟨group, outer, hgroups⟩ := exists_group_of_step hcontinued (by rw [hdirective]; rfl) h
    rw [step_elseIf hcontinued hgroups hdirective] at h
    obtain ⟨taken, hresult, hbranch⟩ := exists_of_map_taken h
    cases hresult
    exact .divides hgroups rfl (fun htaken => heligible (hbranch htaken)) hcontinued
  | otherwise =>
    obtain ⟨group, outer, hgroups⟩ := exists_group_of_step hcontinued (by rw [hdirective]; rfl) h
    rw [step_otherwise hcontinued hgroups hdirective] at h
    cases h
    exact .divides hgroups rfl heligible hcontinued
  | _ =>
    rw [hdirective] at hstarts
    cases hstarts

/-- A line that is not about groups keeps the frames. -/
theorem changes_of_read (hcontinued : state.continued = none)
    (hcomment : isCommentLine raw.trim = false) (hgroup : concernsGroups (directiveOf raw) = false)
    (h : (state.step site raw).outcome = .ok (kept, next)) : Changes state false next := by
  cases henabled : enabled state.groups with
  | false =>
    rw [step_skipped hcontinued henabled hgroup] at h
    cases h
    exact .keeps rfl .inl
  | true =>
    cases hdirective : directiveOf raw with
    | define text =>
      rw [step_define hcontinued henabled hdirective] at h
      split at h
      next =>
        cases h
        exact .keeps rfl .inl
      next definition _ =>
        cases hvalue : definition.evaluate state.table with
        | error fault =>
          rw [hvalue] at h
          cases h
        | ok value =>
          rw [hvalue] at h
          cases h
          exact .keeps rfl fun _ => .inr henabled
    | undefine name =>
      rw [step_undefine hcontinued henabled hdirective] at h
      cases h
      exact .keeps rfl .inl
    | other =>
      rw [step_plain hcontinued henabled hcomment hdirective] at h
      cases h
      exact .keeps rfl .inl
    | _ =>
      rw [hdirective] at hgroup
      cases hgroup

/-- A line that is read changes the frames in one of four ways. -/
theorem changes_of_step (h : (state.step site raw).outcome = .ok (kept, next)) :
    Changes state (state.divides raw) next := by
  cases hcomment : isCommentLine raw.trim with
  | true =>
    rw [step_comment hcomment] at h
    cases h
    rw [divides_of_comment hcomment]
    exact .keeps rfl .inl
  | false =>
    cases hcontinued : state.continued with
    | some name =>
      rw [step_continuation hcomment hcontinued] at h
      cases h
      rw [divides_of_continued hcontinued]
      exact .keeps rfl fun _ => .inl (by simp [hcontinued])
    | none =>
      rw [divides_of_ready hcontinued]
      -- What is left is told by the directive.
      cases hdirective : directiveOf raw with
      | ifTrue | ifDefined | ifUndefined =>
        exact changes_of_opens hcontinued (by rw [hdirective]; rfl) h
      | elseIf | otherwise => exact changes_of_startsBranch hcontinued (by rw [hdirective]; rfl) h
      | endIf =>
        obtain ⟨group, outer, hgroups⟩ := exists_group_of_step hcontinued (by rw [hdirective]; rfl) h
        rw [step_endIf hcontinued hgroups hdirective] at h
        cases h
        exact .closes hgroups hcontinued
      | define | undefine | other =>
        exact changes_of_read hcontinued hcomment (by rw [hdirective]; rfl) h

/-! ## Frames inside each other -/

/-- The innermost frame tells whether lines are read. -/
theorem enabled_of_mem_head? {groups : List Group} {frame : Group}
    (h : frame ∈ (groups ++ [outermost]).head?) : frame.enabled = enabled groups := by
  cases groups with
  | nil =>
    cases h
    rfl
  | cons group outer =>
    cases h
    rfl

/-- A frame inside others is read only where they are. -/
theorem isChain_frames_cons {group : Group} {groups : List Group} :
    (group :: (groups ++ [outermost])).IsChain
        (fun inner outer => inner.enabled = true → outer.enabled = true) ↔
      (group.enabled = true → enabled groups = true) ∧
        (groups ++ [outermost]).IsChain fun inner outer =>
          inner.enabled = true → outer.enabled = true := by
  rw [List.isChain_cons]
  refine and_congr_left fun _ => ⟨fun h henabled => ?_, fun h frame hframe henabled => ?_⟩
  · cases groups with
    | nil => rfl
    | cons outer groups => exact h outer rfl henabled
  · rw [enabled_of_mem_head? hframe]
    exact h henabled

/-- A frame that is read stands in frames all of which are read. -/
theorem enabled_iff_forall {groups : List Group}
    (h : (groups ++ [outermost]).IsChain fun inner outer =>
      inner.enabled = true → outer.enabled = true) :
    enabled groups = true ↔ ∀ frame ∈ groups ++ [outermost], frame.enabled = true := by
  induction groups with
  | nil => exact iff_of_true rfl (List.forall_mem_singleton.2 rfl)
  | cons group groups ih =>
    rw [List.cons_append, isChain_frames_cons] at h
    rw [List.cons_append, List.forall_mem_cons, ← ih h.2]
    exact ⟨fun henabled => ⟨henabled, h.1 henabled⟩, And.left⟩

theorem wellStacked_initial (table : Macro.Table) : (State.initial table).WellStacked where
  nested := List.isChain_singleton _
  taken := List.forall_mem_singleton.2 fun _ => rfl
  continued := fun h => absurd rfl h

/-- A line keeps the frames well stacked. -/
theorem WellStacked.step (h : state.WellStacked)
    (hstep : (state.step site raw).outcome = .ok (kept, next)) : next.WellStacked := by
  obtain ⟨hnested, htaken, hcontinued⟩ := h
  rw [frames] at hnested htaken
  -- Only the innermost frame changes; those around it are chained and taken as they were.
  have hchanges := changes_of_step hstep
  generalize state.divides raw = divided at hchanges
  cases hchanges with
  | keeps hgroups hnext =>
    refine ⟨?_, ?_, fun hne => ?_⟩
    · rwa [frames, hgroups]
    · rwa [frames, hgroups]
    · rw [hgroups]
      exact (hnext hne).elim hcontinued id
  | opens hgroups henabled hnone =>
    refine ⟨?_, ?_, fun hne => absurd hnone hne⟩
    · rw [frames, hgroups]
      exact isChain_frames_cons.2 ⟨henabled, hnested⟩
    · rw [frames, hgroups]
      exact List.forall_mem_cons.2 ⟨id, htaken⟩
  | @divides _ group outer taken hbefore hgroups heligible hnone =>
    rw [hbefore, List.cons_append] at hnested htaken
    refine ⟨?_, ?_, fun hne => absurd hnone hne⟩
    · rw [frames, hgroups]
      exact isChain_frames_cons.2 ⟨fun htaken => (heligible htaken).1, (isChain_frames_cons.1 hnested).2⟩
    · rw [frames, hgroups]
      refine List.forall_mem_cons.2 ⟨fun htaken => ?_, (List.forall_mem_cons.1 htaken).2⟩
      exact Bool.or_eq_true_iff.2 (.inr htaken)
  | closes hbefore hnone =>
    rw [hbefore, List.cons_append] at hnested htaken
    exact ⟨(isChain_frames_cons.1 hnested).2, (List.forall_mem_cons.1 htaken).2,
      fun hne => absurd hnone hne⟩

/-- What every line keeps is kept by any number of lines. -/
theorem invariant_of_run {holds : State → Prop} {located : List (Site × Text)} {lines : List Text}
    (hstep : ∀ {state next : State} {site : Site} {raw : Text} {kept : Option Text}, holds state →
      (state.step site raw).outcome = .ok (kept, next) → holds next)
    (hstart : holds state) (hrun : (state.run located).outcome = .ok (lines, last)) : holds last := by
  induction located generalizing state lines with
  | nil =>
    cases hrun
    exact hstart
  | cons entry rest ih =>
    obtain ⟨site, raw⟩ := entry
    rw [run_cons] at hrun
    obtain ⟨⟨kept, next⟩, hfirst, hrest⟩ := result_of_bind hrun
    obtain ⟨⟨following, final⟩, hbehind, hresult⟩ := result_of_bind hrest
    cases hresult
    exact ih (hstep hstart hfirst) hbehind

/-- The frames are well stacked after any lines. -/
theorem wellStacked_of_run {located : List (Site × Text)} {lines : List Text}
    (h : ((State.initial table).run located).outcome = .ok (lines, state)) : state.WellStacked :=
  invariant_of_run WellStacked.step (wellStacked_initial table) h

/-! ## The branches of a group -/

theorem groupAt?_of_append {inner outer : List Group} {group : Group}
    (h : state.groups = inner ++ group :: outer) : state.groupAt? outer.length = some group := by
  simp [groupAt?, h]

theorem groupAt?_of_closed {outer : List Group} (h : state.groups = outer) :
    state.groupAt? outer.length = none := by
  simp [groupAt?, h]

/-- What a line does to a group with others inside: it closes the group, keeps it, or goes on to another
branch of it, which is taken only if none was before. -/
theorem Changes.group_cases {divided : Bool} {inner outer : List Group} {group : Group}
    (h : Changes state divided next) (hgroups : state.groups = inner ++ group :: outer) :
    next.groups = outer ∨
      ((divided && state.groups.length == outer.length + 1) = false ∧
        ∃ inside, next.groups = inside ++ group :: outer) ∨
      ((divided && state.groups.length == outer.length + 1) = true ∧
        ∃ taken, next.groups =
          { group with enabled := taken, taken := group.taken || taken } :: outer ∧
            (taken = true → group.taken = false)) := by
  -- The line is about this group exactly if no other is open inside.
  have hlength : (state.groups.length == outer.length + 1) = inner.isEmpty := by
    rw [hgroups]
    rcases inner with - | ⟨first, inner⟩
    · exact beq_self_eq_true _
    · refine beq_eq_false_iff_ne.2 ?_
      rw [List.length_append, List.length_cons, List.length_cons]
      omega
  rw [hlength]
  cases h with
  | keeps hkept => exact .inr (.inl ⟨rfl, inner, hkept.trans hgroups⟩)
  | @opens _ site taken hopened =>
    exact .inr (.inl ⟨rfl, ⟨taken, taken, site⟩ :: inner, by rw [hopened, hgroups, List.cons_append]⟩)
  | @divides _ top below taken hbefore hnext heligible =>
    rw [hgroups] at hbefore
    rcases inner with - | ⟨first, inner⟩
    · obtain ⟨rfl, rfl⟩ := List.cons.inj hbefore
      exact .inr (.inr ⟨rfl, taken, hnext, fun htaken => (heligible htaken).2⟩)
    · obtain ⟨rfl, rfl⟩ := List.cons.inj hbefore
      exact .inr (.inl ⟨rfl, _ :: inner, hnext⟩)
  | closes hbefore =>
    rw [hgroups] at hbefore
    rcases inner with - | ⟨first, inner⟩
    · exact .inl (List.cons.inj hbefore).2.symm
    · exact .inr (.inl ⟨rfl, inner, (List.cons.inj hbefore).2.symm⟩)

/-- The only branch of a group that is read, if there is one: it is the present one if that is read, and there
is none if another branch was taken before. -/
structure ReadBranch (group : Group) (branch : Nat) (moments : List (Nat × Bool)) (chosen : Option Nat) :
    Prop where
  only : ∀ moment ∈ moments, moment.2 = true → chosen = some moment.1
  present : group.enabled = true → chosen = some branch
  settled : group.enabled = false → group.taken = true → chosen = none

/-- If no branch is read later, it is the present one that is read. -/
theorem exists_readBranch_of_later {group : Group} {branch : Nat} {later : List (Nat × Bool)}
    (h : ∀ moment ∈ later, moment.2 = false) :
    ∃ chosen, ReadBranch group branch ((branch, group.enabled) :: later) chosen := by
  refine ⟨if group.enabled then some branch else none, ?_, fun henabled => if_pos henabled,
    fun henabled _ => ?_⟩
  · refine List.forall_mem_cons.2 ⟨fun henabled => if_pos henabled, fun moment hmoment hread => ?_⟩
    cases (h moment hmoment).symm.trans hread
  · rw [henabled]
    rfl

/-- The present branch of a group is read or not, and the later moments decide about the others. -/
theorem ReadBranch.cons {group : Group} {branch : Nat} {later : List (Nat × Bool)}
    {chosen : Option Nat} (h : ReadBranch group branch later chosen) :
    ReadBranch group branch ((branch, group.enabled) :: later) chosen :=
  ⟨List.forall_mem_cons.2 ⟨h.present, h.only⟩, h.present, h.settled⟩

/-- At most one branch of a group is read, whatever lines are read as long as it is open. -/
theorem exists_readBranch (inner : List Group) {outer : List Group} {group : Group}
    (hgroups : state.groups = inner ++ group :: outer)
    (htaken : group.enabled = true → group.taken = true) (branch : Nat)
    (located : List (Site × Text)) :
    ∃ chosen, ReadBranch group branch (state.moments outer.length branch located) chosen := by
  -- The groups around it tell which group it is, behind every line until it is closed.
  induction located generalizing state inner group branch with
  | nil =>
    simp only [moments, groupAt?_of_append hgroups]
    exact exists_readBranch_of_later (List.forall_mem_nil _)
  | cons entry rest ih =>
    obtain ⟨site, raw⟩ := entry
    simp only [moments, groupAt?_of_append hgroups]
    cases hstep : (state.step site raw).outcome with
    | error fault => exact exists_readBranch_of_later (List.forall_mem_nil _)
    | ok result =>
      obtain ⟨kept, next⟩ := result
      rcases (changes_of_step hstep).group_cases hgroups with
        hclosed | ⟨hown, inside, hinside⟩ | ⟨hown, taken, hnext, heligible⟩
      · have hnone (branch : Nat) : next.moments outer.length branch rest = [] := by
          cases rest <;> simp only [moments, groupAt?_of_closed hclosed]
        simp only [hnone]
        exact exists_readBranch_of_later (List.forall_mem_nil _)
      · obtain ⟨chosen, hchosen⟩ := ih inside hinside htaken branch
        simp only [hown, Bool.false_eq_true, if_false]
        exact ⟨chosen, hchosen.cons⟩
      · -- Behind a branch that was taken none is, so that the group stays settled.
        obtain ⟨chosen, hchosen⟩ := ih [] hnext
          (fun hread => Bool.or_eq_true_iff.2 (.inr hread)) (branch + 1)
        have hsettled (h : group.taken = true) : chosen = none := by
          refine hchosen.settled ?_ (Bool.or_eq_true_iff.2 (.inl h))
          exact Bool.eq_false_iff.2 fun hread => absurd ((heligible hread).symm.trans h) (by decide)
        simp only [hown, if_true]
        by_cases henabled : group.enabled = true
        · refine exists_readBranch_of_later fun moment hmoment => Bool.eq_false_iff.2 fun hread => ?_
          cases (hsettled (htaken henabled)).symm.trans (hchosen.only moment hmoment hread)
        · rw [Bool.not_eq_true] at henabled
          refine ⟨chosen, List.forall_mem_cons.2 ⟨fun h => ?_, hchosen.only⟩, fun h => ?_,
            fun _ => hsettled⟩
          · cases henabled.symm.trans h
          · cases henabled.symm.trans h

/-- A line with which one more group is open has opened that group. -/
theorem exists_opened (hstep : (state.step site raw).outcome = .ok (kept, next))
    (hlength : next.groups.length = state.groups.length + 1) : ∃ group,
    next.groups = group :: state.groups ∧ (group.enabled = true → group.taken = true) := by
  have hchanges := changes_of_step hstep
  generalize state.divides raw = divided at hchanges
  cases hchanges with
  | keeps hgroups =>
    rw [hgroups] at hlength
    omega
  | opens hgroups => exact ⟨_, hgroups, id⟩
  | divides hbefore hgroups =>
    rw [hbefore, hgroups, List.length_cons, List.length_cons] at hlength
    omega
  | closes hbefore =>
    rw [hbefore, List.length_cons] at hlength
    omega

/-! ## Where lines are not read -/

/-- Where lines are not read, no definition is continued, and they stand in a group. -/
theorem WellStacked.of_disabled (h : state.WellStacked) (hdisabled : enabled state.groups = false) :
    state.continued = none ∧ ∃ group outer, state.groups = group :: outer := by
  constructor
  · by_contra hcontinued
    cases hdisabled.symm.trans (h.continued hcontinued)
  · cases hgroups : state.groups with
    | nil =>
      rw [hgroups] at hdisabled
      cases hdisabled
    | cons group outer => exact ⟨group, outer, rfl⟩

/-- The next branch of a group is decided without a fault, unless the group can still take a branch and the
condition has no value. -/
theorem step_elseIf_cases {group : Group} {outer : List Group} {condition : Text}
    (hcontinued : state.continued = none) (hgroups : state.groups = group :: outer)
    (hdirective : directiveOf raw = .elseIf condition) :
    (∃ next, (state.step site raw).outcome = .ok (none, next) ∧ next.table = state.table) ∨
    ∃ cause, (state.step site raw).outcome = .error (.invalidCondition raw.trim cause) ∧
      ((Condition.ofText condition).holds state.table raw.trim).outcome =
        .error (.invalidCondition raw.trim cause) ∧
      group.taken = false ∧ enabled outer = true := by
  rw [step_elseIf hcontinued hgroups hdirective, branchHolds, hdirective]
  split
  next heligible =>
    rw [Bool.and_eq_true, Bool.not_eq_true'] at heligible
    simp only
    cases hholds : ((Condition.ofText condition).holds state.table raw.trim).outcome with
    | error fault =>
      obtain ⟨-, -, cause, -, rfl⟩ := Condition.exists_of_holds hholds
      exact .inr ⟨cause, rfl, rfl, heligible.2, heligible.1⟩
    | ok taken => exact .inl ⟨_, rfl, rfl⟩
  next => exact .inl ⟨_, rfl, rfl⟩

/-- Where lines are not read, a line keeps nothing and leaves the table as it is, or it is one that starts a
branch with a condition that has no value: no branch of the group was taken, and the group stands where
lines are read. -/
theorem step_of_disabled (h : state.WellStacked) (hdisabled : enabled state.groups = false) (site : Site)
    (raw : Text) :
    (∃ next, (state.step site raw).outcome = .ok (none, next) ∧ next.table = state.table) ∨
    ∃ condition cause group outer, directiveOf raw = .elseIf condition ∧
      state.groups = group :: outer ∧
      (state.step site raw).outcome = .error (.invalidCondition raw.trim cause) ∧
      ((Condition.ofText condition).holds state.table raw.trim).outcome =
        .error (.invalidCondition raw.trim cause) ∧
      group.taken = false ∧ enabled outer = true := by
  -- The text around all groups is read, so there is a group for `#elif`, `#else` and `#endif`.
  obtain ⟨hcontinued, group, outer, hgroups⟩ := h.of_disabled hdisabled
  cases hdirective : directiveOf raw with
  | ifTrue | ifDefined | ifUndefined =>
    refine .inl ⟨state.openGroup site false, ?_, rfl⟩
    rw [step_open hcontinued (by rw [hdirective]; rfl), if_neg (by simp [hdisabled])]
    rfl
  | elseIf condition =>
    rcases step_elseIf_cases hcontinued hgroups hdirective with hread | ⟨cause, hfault⟩
    · exact .inl hread
    · exact .inr ⟨condition, cause, group, outer, rfl, hgroups, hfault⟩
  | otherwise => exact .inl ⟨_, step_otherwise hcontinued hgroups hdirective, rfl⟩
  | endIf => exact .inl ⟨_, step_endIf hcontinued hgroups hdirective, rfl⟩
  | define | undefine | other =>
    exact .inl ⟨state, step_skipped hcontinued hdisabled (by rw [hdirective]; rfl), rfl⟩

/-! ## Any lines -/

/-- After any lines, the outermost frame is there and is read, and no line divides or closes it. A frame is
read only inside one that is read, so that lines are read exactly where all frames are, the branch that is
read has been taken, and a definition goes on only where lines are read. Of the branches of a group that is
opened then, at most one is read until the group is closed. Where lines are not read, a line keeps nothing
and leaves the table as it is; it can fail only for the condition of another branch, in a group of which no
branch was taken and that stands where lines are read. -/
theorem frames_of_run {located : List (Site × Text)} {lines : List Text}
    (h : ((State.initial table).run located).outcome = .ok (lines, state)) :
    (state.frames.getLast? = some outermost ∧ outermost.enabled = true) ∧
    (state.frames = [outermost] → state.continued = none → ∀ site raw word,
      innerWord? (directiveOf raw) = some word →
        (state.step site raw).outcome = .error (.unmatchedDirective word site)) ∧
    state.frames.IsChain (fun inner outer => inner.enabled = true → outer.enabled = true) ∧
    (enabled state.groups = true ↔ ∀ frame ∈ state.frames, frame.enabled = true) ∧
    (∀ frame ∈ state.frames, frame.enabled = true → frame.taken = true) ∧
    (state.continued ≠ none → enabled state.groups = true) ∧
    (∀ site raw kept next, (state.step site raw).outcome = .ok (kept, next) →
      next.groups.length = state.groups.length + 1 → ∀ following,
        ∀ first ∈ next.moments state.groups.length 0 following,
        ∀ second ∈ next.moments state.groups.length 0 following,
          first.2 = true → second.2 = true → first.1 = second.1) ∧
    (enabled state.groups = false → ∀ site raw,
      (∃ next, (state.step site raw).outcome = .ok (none, next) ∧ next.table = state.table) ∨
      ∃ condition cause group outer, directiveOf raw = .elseIf condition ∧
        state.groups = group :: outer ∧
        (state.step site raw).outcome = .error (.invalidCondition raw.trim cause) ∧
        ((Condition.ofText condition).holds state.table raw.trim).outcome =
          .error (.invalidCondition raw.trim cause) ∧
        group.taken = false ∧ enabled outer = true) := by
  have hstacked := wellStacked_of_run h
  refine ⟨⟨List.getLast?_concat, rfl⟩, ?_, hstacked.nested, enabled_iff_forall hstacked.nested,
    hstacked.taken, hstacked.continued, ?_, step_of_disabled hstacked⟩
  · intro hframes hcontinued site raw word hword
    exact step_unmatched hcontinued (List.append_left_eq_self.1 hframes) hword
  · intro site raw kept next hstep hlength following first hfirst second hsecond hread hread'
    obtain ⟨group, hgroups, htaken⟩ := exists_opened hstep hlength
    obtain ⟨chosen, hchosen⟩ := exists_readBranch [] hgroups htaken 0 following
    exact Option.some.inj
      ((hchosen.only first hfirst hread).symm.trans (hchosen.only second hsecond hread'))

/-- In the second branch of a group, another one is opened, whose second branch is read and whose last two are
not. In a group whose first branch is not read, an `#elif` without a value fails. -/
theorem frames_exampleGroups :
    let site (line : Nat) : Site := ⟨"a.glsl".toList, line⟩
    let before : State := ⟨.empty, [⟨true, true, site 1⟩], none⟩
    let next : State := before.openGroup (site 3) false
    let skipped : State := ⟨.empty, [⟨false, false, site 1⟩], none⟩
    let following : List (Site × Text) := [(site 4, "#elif 1".toList), (site 5, "#else".toList),
      (site 6, "#elif 1".toList), (site 7, "#endif".toList), (site 8, "#endif".toList)]
    let branches := [(0, false), (1, true), (2, false), (3, false)]
    ((State.initial .empty).run [(site 1, "#ifdef A".toList), (site 2, "#else".toList)]).outcome =
        .ok ([], before) ∧
      (before.step (site 3) "#if 0".toList).outcome = .ok (none, next) ∧
      next.moments 1 0 following = branches ∧
      (∀ first ∈ branches, ∀ second ∈ branches, first.2 = true → second.2 = true → first.1 = second.1) ∧
      ((State.initial .empty).run [(site 1, "#ifdef A".toList)]).outcome = .ok ([], skipped) ∧
      (skipped.step (site 2) "#elif B".toList).outcome =
        .error (.invalidCondition "#elif B".toList (.unknownName "B".toList)) ∧
      ((∃ next, (skipped.step (site 2) "#elif B".toList).outcome = .ok (none, next) ∧
          next.table = skipped.table) ∨
        ∃ condition cause group outer, directiveOf "#elif B".toList = .elseIf condition ∧
          skipped.groups = group :: outer ∧
          (skipped.step (site 2) "#elif B".toList).outcome =
            .error (.invalidCondition "#elif B".toList cause) ∧
          ((Condition.ofText condition).holds skipped.table "#elif B".toList).outcome =
            .error (.invalidCondition "#elif B".toList cause) ∧
          group.taken = false ∧ enabled outer = true) := by
  intro site before next skipped following branches
  have hbefore : ((State.initial .empty).run
      [(site 1, "#ifdef A".toList), (site 2, "#else".toList)]).outcome = .ok ([], before) := by
    decide +kernel
  have hskipped : ((State.initial .empty).run [(site 1, "#ifdef A".toList)]).outcome =
      .ok ([], skipped) := by
    decide +kernel
  have hopens : (before.step (site 3) "#if 0".toList).outcome = .ok (none, next) := by decide +kernel
  have hmoments : next.moments 1 0 following = branches := by decide +kernel
  obtain ⟨-, -, -, -, -, -, honly, -⟩ := frames_of_run hbefore
  obtain ⟨-, -, -, -, -, -, -, hfails⟩ := frames_of_run hskipped
  refine ⟨hbefore, hopens, hmoments, ?_, hskipped, by decide +kernel, hfails rfl (site 2) _⟩
  rw [← hmoments]
  exact honly (site 3) _ none next hopens rfl following

end State

end ShaderInterface.Preprocessing
