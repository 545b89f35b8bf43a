import ShaderInterface.Proofs.Preprocessing.Balance
import ShaderInterface.Proofs.Preprocessing.Structure

/-!
# The Lines that Count

A run passes over comment lines and puts the lines that continue a definition behind its value. All
other lines that it reaches are read on their own, and only these open, divide and close groups.
Whether a condition holds decides which lines are read as definitions, and so which lines continue
one, but it has no other part in the balance of the groups.

## Main definitions

* `State.visits`: the lines that a run reads on their own.
* `Visit.evaluationFault?`: the fault of the arithmetic text that is evaluated for a line.

## Main results

* `run_visits`: where no evaluation fails, the open groups are those of the lines read.
* `preprocess_balance`: preprocessing fails at the first evaluation that fails, or else where the
  groups of the lines read break.
-/

namespace ShaderInterface.Preprocessing

open ShaderInterface.Text

/-- A line that is read on its own, with the state in which it is. -/
structure Visit where
  /-- What is known in front of the line. -/
  state : State
  /-- Where the line stands. -/
  site : Site
  /-- The line as it is written. -/
  raw : Text

/-- The line without the state. -/
def Visit.line (visit : Visit) : Site × Text :=
  (visit.site, visit.raw)

/-- The lines that a run reads on their own, up to the one at which it fails: no comment line and no
line that continues a definition is among them. -/
def State.visits (state : State) : List (Site × Text) → List Visit
  | [] => []
  | (site, raw) :: rest =>
    let visit := if isCommentLine raw.trim || state.continued.isSome then [] else [⟨state, site, raw⟩]
    match (state.step site raw).outcome with
    | .ok (_, next) => visit ++ next.visits rest
    | .error _ => visit

/-- The fault of the arithmetic text that is evaluated for a line: a condition is evaluated where its
branch can be taken, and a definition where lines are read. -/
def Visit.evaluationFault? (visit : Visit) : Option Fault :=
  match directiveOf visit.raw, visit.state.groups with
  | .ifTrue _, groups =>
    if enabled groups then faultOf? (branchHolds visit.state.table visit.raw) else none
  | .elseIf _, group :: outer =>
    if enabled outer && !group.taken then faultOf? (branchHolds visit.state.table visit.raw)
    else none
  | .define _, groups =>
    if enabled groups then faultOf? (defineLines visit.state.table visit.raw []) else none
  | _, _ => none

/-- Whether a line is one that defines a macro and is continued. -/
def ContinuesDefinition (raw : Text) : Prop :=
  (∃ definition, directiveOf raw = .define definition) ∧ isContinued raw.trim = true

/-- The lines on which the open groups started. -/
def State.openSites (state : State) : List Site :=
  state.groups.map Group.opener

variable {state : State} {site : Site} {raw : Text} {lines : List (Site × Text)}

/-! ## One line -/

theorem step_unmatched {word : Text} (hcontinued : state.continued = none)
    (hgroups : state.groups = []) (h : innerWord? (directiveOf raw) = some word) :
    (state.step site raw).outcome = .error (.unmatchedDirective word site) := by
  obtain ⟨report, hobey, hfault⟩ : ∃ report,
      state.obeyGroupDirective? site raw.trim (directiveOf raw) = some report ∧
        report.outcome = .error (.unmatchedDirective word site) := by
    cases hdirective : directiveOf raw with
    | elseIf condition =>
      rw [hdirective] at h
      cases h
      exact ⟨_, rfl, State.outcome_innermost_bind hgroups _ site _⟩
    | otherwise =>
      rw [hdirective] at h
      cases h
      exact ⟨_, rfl, State.outcome_innermost_bind hgroups _ site _⟩
    | endIf =>
      rw [hdirective] at h
      cases h
      exact ⟨_, rfl, State.outcome_innermost_bind hgroups _ site _⟩
    | _ =>
      rw [hdirective] at h
      cases h
  have hdirective : directiveOf raw ≠ .other := by
    intro hother
    rw [hother] at h
    cases h
  rw [State.step_groupDirective hcontinued hdirective hobey, hfault]
  rfl

/-- A definition that is read fails where its arithmetic does. -/
theorem step_define_of_fault {text : Text} {fault : Fault} (hcontinued : state.continued = none)
    (henabled : enabled state.groups = true) (hdirective : directiveOf raw = .define text)
    (h : defineLines state.table raw [] = .error fault) :
    (state.step site raw).outcome = .error fault := by
  rw [defineLines, hdirective] at h
  rw [State.step_define hcontinued henabled hdirective]
  cases hdefinition : Definition.ofText? text with
  | none =>
    simp only [hdefinition] at h
    cases h
  | some definition =>
    simp only [hdefinition] at h ⊢
    rcases fault_of_bind h with hvalue | ⟨value, -, hset⟩
    · rw [hvalue]
      rfl
    · cases hset

/-- A definition that is read and does not fail leaves the groups as they are. -/
theorem step_define_of_none {text : Text} (hcontinued : state.continued = none)
    (henabled : enabled state.groups = true) (hdirective : directiveOf raw = .define text)
    (h : faultOf? (defineLines state.table raw []) = none) :
    ∃ next, (state.step site raw).outcome = .ok (none, next) ∧ next.groups = state.groups ∧
      (isContinued raw.trim = false → next.continued = none) := by
  rw [State.step_define hcontinued henabled hdirective]
  obtain ⟨table, htable⟩ := exists_of_faultOf?_eq_none h
  rw [defineLines, hdirective] at htable
  cases hdefinition : Definition.ofText? text with
  | none => exact ⟨state, rfl, rfl, fun _ => hcontinued⟩
  | some definition =>
    simp only [hdefinition] at htable ⊢
    obtain ⟨value, hvalue, -⟩ := result_of_bind htable
    rw [hvalue]
    refine ⟨_, rfl, rfl, fun hlast => ?_⟩
    rw [hlast]
    rfl

/-- A line at which an evaluation fails ends the run. -/
theorem Visit.step_of_fault {visit : Visit} {fault : Fault} (hcontinued : visit.state.continued = none)
    (h : visit.evaluationFault? = some fault) :
    (visit.state.step visit.site visit.raw).outcome = .error fault ∧ IsEvaluationFault fault := by
  obtain ⟨state, site, raw⟩ := visit
  unfold evaluationFault? at h
  split at h
  next condition hdirective =>
    split at h
    next henabled =>
      have hholds := faultOf?_eq_some h
      refine ⟨?_, branchHolds_fault hholds⟩
      rw [State.step_open hcontinued (by rw [hdirective]; rfl), if_pos henabled, hholds]
      rfl
    next => cases h
  next condition group outer hdirective hgroups =>
    split at h
    next heligible =>
      have hholds := faultOf?_eq_some h
      refine ⟨?_, branchHolds_fault hholds⟩
      rw [State.step_elseIf hcontinued hgroups hdirective, if_pos heligible, hholds]
      rfl
    next => cases h
  next definition hdirective =>
    split at h
    next henabled =>
      have hlines := faultOf?_eq_some h
      exact ⟨step_define_of_fault hcontinued henabled hdirective hlines, defineLines_fault hlines⟩
    next => cases h
  next => cases h

/-- Whether the first branch of a group is taken is known where no evaluation fails. -/
theorem Visit.exists_taken_of_open {visit : Visit} (hopens : opensGroup (directiveOf visit.raw) = true)
    (h : visit.evaluationFault? = none) : ∃ taken,
      (if enabled visit.state.groups then branchHolds visit.state.table visit.raw else .ok false) =
        .ok taken := by
  by_cases henabled : enabled visit.state.groups = true
  · rw [if_pos henabled]
    apply exists_of_faultOf?_eq_none
    cases hdirective : directiveOf visit.raw with
    | ifTrue condition =>
      simp only [evaluationFault?, hdirective, if_pos henabled] at h
      exact h
    | ifDefined name | ifUndefined name =>
      rw [branchHolds, hdirective]
      rfl
    | _ =>
      rw [hdirective] at hopens
      cases hopens
  · rw [if_neg henabled]
    exact ⟨false, rfl⟩

/-- Whether the next branch of a group is taken is known where no evaluation fails. -/
theorem Visit.exists_taken_of_elseIf {visit : Visit} {condition : Text} {group : Group}
    {outer : List Group} (hdirective : directiveOf visit.raw = .elseIf condition)
    (hgroups : visit.state.groups = group :: outer) (h : visit.evaluationFault? = none) :
    ∃ taken, (if enabled outer && !group.taken then branchHolds visit.state.table visit.raw
      else .ok false) = .ok taken := by
  simp only [evaluationFault?, hdirective, hgroups] at h
  split at h
  next heligible =>
    rw [if_pos heligible]
    exact exists_of_faultOf?_eq_none h
  next heligible =>
    rw [if_neg heligible]
    exact ⟨false, rfl⟩

/-- What a line does to the open groups, told without any condition: either it is read and changes
them, or it fails. A definition is continued only behind a line that says so. -/
def StepsAs (state : State) (line : Site × Text) : Prop :=
  (∃ kept next, (state.step line.1 line.2).outcome = .ok (kept, next) ∧
    openSitesBehind state.openSites line = .ok next.openSites ∧
    (¬ ContinuesDefinition line.2 → next.continued = none)) ∨
  ∃ fault, (state.step line.1 line.2).outcome = .error fault ∧
    openSitesBehind state.openSites line = .error fault

/-- A line that is not about groups keeps the level, whatever groups are open. -/
theorem keeps_of_concernsGroups {directive : Directive}
    (h : State.concernsGroups directive = false) :
    depthChange directive = 0 ∧ innerWord? directive = none := by
  cases directive with
  | ifTrue | ifDefined | ifUndefined | elseIf | otherwise | endIf => cases h
  | define | undefine | other => exact ⟨rfl, rfl⟩

/-- A line that is read and leaves the level as it is. -/
theorem stepsAs_of_step {kept : Option Text} {next : State}
    (hstep : (state.step site raw).outcome = .ok (kept, next))
    (hsites : next.openSites = state.openSites) (hkeep : depthChange (directiveOf raw) = 0)
    (hinside : innerWord? (directiveOf raw) = none ∨ state.openSites ≠ [])
    (hnext : ¬ ContinuesDefinition raw → next.continued = none) : StepsAs state (site, raw) := by
  refine .inl ⟨kept, next, hstep, ?_, hnext⟩
  rw [hsites]
  exact openSitesBehind_keep hkeep hinside

/-- A line that is not about groups and is read. -/
theorem stepsAs_of_read {kept : Option Text} {next : State}
    (hgroup : State.concernsGroups (directiveOf raw) = false)
    (hstep : (state.step site raw).outcome = .ok (kept, next))
    (hsites : next.openSites = state.openSites)
    (hnext : ¬ ContinuesDefinition raw → next.continued = none) : StepsAs state (site, raw) := by
  obtain ⟨hkeep, hinner⟩ := keeps_of_concernsGroups hgroup
  exact stepsAs_of_step hstep hsites hkeep (.inl hinner) hnext

/-- A line that is not about groups and is skipped. -/
theorem stepsAs_of_skipped (hcontinued : state.continued = none)
    (henabled : ¬ enabled state.groups = true)
    (hgroup : State.concernsGroups (directiveOf raw) = false) : StepsAs state (site, raw) := by
  rw [Bool.not_eq_true] at henabled
  exact stepsAs_of_read hgroup (State.step_skipped hcontinued henabled hgroup) rfl
    fun _ => hcontinued

/-- A line that divides or closes a group where none is open. -/
theorem stepsAs_of_unmatched {word : Text} (hcontinued : state.continued = none)
    (hgroups : state.groups = []) (hword : innerWord? (directiveOf raw) = some word) :
    StepsAs state (site, raw) := by
  refine .inr ⟨_, step_unmatched hcontinued hgroups hword, ?_⟩
  rw [State.openSites, hgroups]
  exact openSitesBehind_unmatched hword

/-- Where no evaluation fails, a line changes the open groups as it does without any condition. -/
theorem Visit.stepsAs {visit : Visit} (hcontinued : visit.state.continued = none)
    (hcomment : isCommentLine visit.raw.trim = false) (h : visit.evaluationFault? = none) :
    StepsAs visit.state visit.line := by
  obtain ⟨state, site, raw⟩ := visit
  dsimp only [line] at hcontinued hcomment ⊢
  have hsites {group : Group} {outer : List Group} (hgroups : state.groups = group :: outer) :
      state.openSites = group.opener :: outer.map Group.opener := by
    rw [State.openSites, hgroups, List.map_cons]
  cases hdirective : directiveOf raw with
  -- The directives of groups change the stack, whether or not lines are read where they stand.
  | ifTrue | ifDefined | ifUndefined =>
    have hopens : opensGroup (directiveOf raw) = true := by rw [hdirective]; rfl
    obtain ⟨taken, htaken⟩ := exists_taken_of_open hopens h
    refine .inl ⟨none, state.openGroup site taken, ?_, openSitesBehind_open hopens,
      fun _ => hcontinued⟩
    rw [State.step_open hcontinued hopens, htaken]
    rfl
  | endIf =>
    rcases hgroups : state.groups with - | ⟨group, outer⟩
    · exact stepsAs_of_unmatched hcontinued hgroups (by rw [hdirective]; rfl)
    · refine .inl ⟨none, _, State.step_endIf hcontinued hgroups hdirective, ?_, fun _ => hcontinued⟩
      rw [hsites hgroups]
      exact openSitesBehind_endIf hdirective
  | elseIf condition =>
    rcases hgroups : state.groups with - | ⟨group, outer⟩
    · exact stepsAs_of_unmatched hcontinued hgroups (by rw [hdirective]; rfl)
    · obtain ⟨taken, htaken⟩ := exists_taken_of_elseIf hdirective hgroups h
      have hstep : (state.step site raw).outcome = _ :=
        State.step_elseIf hcontinued hgroups hdirective
      rw [htaken] at hstep
      exact stepsAs_of_step hstep (hsites hgroups).symm (by rw [hdirective]; rfl)
        (.inr (by simp [hsites hgroups])) fun _ => hcontinued
  | otherwise =>
    rcases hgroups : state.groups with - | ⟨group, outer⟩
    · exact stepsAs_of_unmatched hcontinued hgroups (by rw [hdirective]; rfl)
    · exact stepsAs_of_step (State.step_otherwise hcontinued hgroups hdirective)
        (hsites hgroups).symm (by rw [hdirective]; rfl) (.inr (by simp [hsites hgroups]))
        fun _ => hcontinued
  -- All other lines keep it. Of these, only a definition that is read can be continued.
  | define definition =>
    have hgroup : State.concernsGroups (directiveOf raw) = false := by rw [hdirective]; rfl
    by_cases henabled : enabled state.groups = true
    · simp only [evaluationFault?, hdirective, if_pos henabled] at h
      obtain ⟨next, hstep, hgroups, hlast⟩ := step_define_of_none hcontinued henabled hdirective h
      have hkept : next.openSites = state.openSites := congrArg (List.map Group.opener) hgroups
      refine stepsAs_of_read hgroup hstep hkept fun hno => hlast ?_
      rw [← Bool.not_eq_true]
      exact fun hcontinues => hno ⟨⟨definition, hdirective⟩, hcontinues⟩
    · exact stepsAs_of_skipped hcontinued henabled hgroup
  | undefine name =>
    have hgroup : State.concernsGroups (directiveOf raw) = false := by rw [hdirective]; rfl
    by_cases henabled : enabled state.groups = true
    · exact stepsAs_of_read hgroup (State.step_undefine hcontinued henabled hdirective) rfl
        fun _ => hcontinued
    · exact stepsAs_of_skipped hcontinued henabled hgroup
  | other =>
    have hgroup : State.concernsGroups (directiveOf raw) = false := by rw [hdirective]; rfl
    by_cases henabled : enabled state.groups = true
    · exact stepsAs_of_read hgroup (State.step_plain hcontinued henabled hcomment hdirective) rfl
        fun _ => hcontinued
    · exact stepsAs_of_skipped hcontinued henabled hgroup

/-! ## Runs -/

/-- A line that is not read on its own changes no group. -/
theorem visits_of_unread (site : Site) (rest : List (Site × Text))
    (h : isCommentLine raw.trim = true ∨ state.continued.isSome = true) :
    ∃ next, (state.step site raw).outcome = .ok (none, next) ∧ next.openSites = state.openSites ∧
      state.visits ((site, raw) :: rest) = next.visits rest := by
  have hread : (isCommentLine raw.trim || state.continued.isSome) = true := by
    rwa [Bool.or_eq_true]
  obtain ⟨next, hstep, hsites⟩ : ∃ next, (state.step site raw).outcome = .ok (none, next) ∧
      next.openSites = state.openSites := by
    by_cases hcomment : isCommentLine raw.trim = true
    · exact ⟨state, State.step_comment hcomment, rfl⟩
    · rw [Bool.not_eq_true] at hcomment
      obtain ⟨name, hname⟩ := Option.isSome_iff_exists.1 (h.resolve_left (by simp [hcomment]))
      exact ⟨_, State.step_continuation hcomment hname, rfl⟩
  refine ⟨next, hstep, hsites, ?_⟩
  rw [State.visits, hread, hstep]
  rfl

/-- The lines read from a line on that is read on its own. -/
theorem visits_of_read (rest : List (Site × Text)) (hcomment : isCommentLine raw.trim = false)
    (hcontinued : state.continued = none) :
    state.visits ((site, raw) :: rest) = ⟨state, site, raw⟩ ::
      match (state.step site raw).outcome with
      | .ok (_, next) => next.visits rest
      | .error _ => [] := by
  rw [State.visits, hcomment, hcontinued]
  cases (state.step site raw).outcome <;> rfl

/-- A line is read on its own or not. -/
theorem read_cases (state : State) (raw : Text) :
    (isCommentLine raw.trim = true ∨ state.continued.isSome = true) ∨
      isCommentLine raw.trim = false ∧ state.continued = none := by
  cases isCommentLine raw.trim <;> cases state.continued <;> simp

/-- A run fails where an evaluation does. -/
theorem run_of_fault {visit : Visit} {fault : Fault} (hvisit : visit ∈ state.visits lines)
    (h : visit.evaluationFault? = some fault) :
    (state.run lines).outcome = .error fault ∧ IsEvaluationFault fault := by
  induction lines generalizing state with
  | nil => cases hvisit
  | cons line rest ih =>
    obtain ⟨site, raw⟩ := line
    rcases read_cases state raw with hunread | ⟨hcomment, hcontinued⟩
    · obtain ⟨next, hstep, -, hvisits⟩ := visits_of_unread site rest hunread
      rw [hvisits] at hvisit
      rw [State.run_cons_of_step rest hstep]
      exact ih hvisit
    · rw [visits_of_read rest hcomment hcontinued, List.mem_cons] at hvisit
      rw [State.run_cons]
      rcases hvisit with rfl | hvisit
      · obtain ⟨hstep, hfault⟩ := Visit.step_of_fault hcontinued h
        dsimp only at hstep
        rw [hstep]
        exact ⟨rfl, hfault⟩
      · -- An evaluation further on is reached only if the line is read.
        cases hstep : (state.step site raw).outcome with
        | error cause =>
          rw [hstep] at hvisit
          cases hvisit
        | ok result =>
          rw [hstep] at hvisit
          obtain ⟨hrun, hfault⟩ := ih hvisit
          refine ⟨?_, hfault⟩
          show (result.2.run rest).outcome >>= _ = _
          rw [hrun]
          rfl

/-- Where no evaluation fails, the open groups are those of the lines that are read on their own. -/
theorem run_visits (h : ∀ visit ∈ state.visits lines, visit.evaluationFault? = none) :
    (state.run lines).outcome.map (fun result => result.2.openSites) =
      ((state.visits lines).map Visit.line).foldlM openSitesBehind state.openSites := by
  induction lines generalizing state with
  | nil => rfl
  | cons line rest ih =>
    obtain ⟨site, raw⟩ := line
    rcases read_cases state raw with hunread | ⟨hcomment, hcontinued⟩
    · obtain ⟨next, hstep, hsites, hvisits⟩ := visits_of_unread site rest hunread
      rw [hvisits] at h ⊢
      rw [State.run_cons_of_step rest hstep, ih h, hsites]
    · rw [visits_of_read rest hcomment hcontinued] at h ⊢
      rw [List.forall_mem_cons] at h
      have hsteps : StepsAs state (site, raw) := Visit.stepsAs hcontinued hcomment h.1
      rw [State.run_cons, List.map_cons, List.foldlM_cons, Visit.line]
      rcases hsteps with ⟨kept, next, hstep, hsites, -⟩ | ⟨fault, hstep, hsites⟩
      · dsimp only at hstep
        rw [hstep] at h
        rw [hsites, hstep]
        -- The lines that are kept for the output have no part in the groups.
        refine Eq.trans ?_ (ih h.2)
        show (((next.run rest).outcome >>= _ : Except Fault _)).map _ = _
        cases (next.run rest).outcome <;> rfl
      · dsimp only at hstep
        rw [hsites, hstep]
        rfl

/-- Where no definition is continued, all lines count: those that are not read on their own are
comment lines. -/
theorem foldlM_visits (hcontinued : state.continued = none)
    (h : ∀ visit ∈ state.visits lines, visit.evaluationFault? = none)
    (hlines : ∀ line ∈ lines, ¬ ContinuesDefinition line.2) :
    ((state.visits lines).map Visit.line).foldlM openSitesBehind state.openSites =
      lines.foldlM openSitesBehind state.openSites := by
  induction lines generalizing state with
  | nil => rfl
  | cons line rest ih =>
    obtain ⟨site, raw⟩ := line
    rw [List.forall_mem_cons] at hlines
    rw [List.foldlM_cons]
    by_cases hcomment : isCommentLine raw.trim = true
    · have hother : directiveOf raw = .other := directiveOf_comment hcomment
      have hkeep : openSitesBehind state.openSites (site, raw) = .ok state.openSites :=
        openSitesBehind_keep (by rw [hother]; rfl) (.inl (by rw [hother]; rfl))
      have hvisits : state.visits ((site, raw) :: rest) = state.visits rest := by
        rw [State.visits, hcomment, State.step_comment hcomment]
        rfl
      rw [hvisits] at h ⊢
      rw [hkeep]
      exact ih hcontinued h hlines.2
    · rw [Bool.not_eq_true] at hcomment
      rw [visits_of_read rest hcomment hcontinued] at h ⊢
      rw [List.forall_mem_cons] at h
      have hsteps : StepsAs state (site, raw) := Visit.stepsAs hcontinued hcomment h.1
      rw [List.map_cons, List.foldlM_cons, Visit.line]
      rcases hsteps with ⟨kept, next, hstep, hsites, hnext⟩ | ⟨fault, hstep, hsites⟩
      · dsimp only at hstep
        rw [hstep] at h ⊢
        rw [hsites]
        exact ih (hnext hlines.1) h.2 hlines.2
      · rw [hsites]
        rfl

/-! ## Preprocessing -/

/-- The lines that preprocessing reads on their own. -/
def visited (table : Macro.Table) (fragments : List Fragment) : List Visit :=
  (State.initial table).visits (numberedLines fragments)

/-- No evaluation of a condition or a definition fails. -/
def Evaluates (table : Macro.Table) (fragments : List Fragment) : Prop :=
  ∀ visit ∈ visited table fragments, visit.evaluationFault? = none

instance (table : Macro.Table) (fragments : List Fragment) :
    Decidable (Evaluates table fragments) :=
  decidable_of_iff ((visited table fragments).all (·.evaluationFault? = none))
    (by simp [Evaluates])

/-- No line that defines a macro is continued. -/
def WithoutContinuation (fragments : List Fragment) : Prop :=
  ∀ line ∈ numberedLines fragments, ¬ ContinuesDefinition line.2

variable {table : Macro.Table} {fragments : List Fragment}

/-- Where no evaluation fails, preprocessing fails where the lines read are not balanced. -/
theorem faultOf?_preprocess (h : Evaluates table fragments) :
    faultOf? (preprocess table fragments).outcome =
      balanceFault? ((visited table fragments).map Visit.line) := by
  have hrun : ((State.initial table).run (numberedLines fragments)).outcome.map
      (fun result => result.2.openSites) = openSites ((visited table fragments).map Visit.line) :=
    run_visits h
  rw [balanceFault?, ← hrun]
  simp only [preprocess, Report.outcome_bind]
  cases ((State.initial table).run (numberedLines fragments)).outcome with
  | error fault => rfl
  | ok result =>
    obtain ⟨kept, state⟩ := result
    -- At the end, an open group is a fault.
    show faultOf? ((requireClosed state.groups).outcome >>= _) = _
    cases hgroups : state.groups with
    | nil =>
      simp [requireClosed, Except.map, State.openSites, hgroups]
      rfl
    | cons group outer =>
      simp [requireClosed, Except.map, State.openSites, hgroups]
      rfl

/-- Where no evaluation fails and no definition is continued, preprocessing fails where the lines of
the fragments are not balanced. -/
theorem faultOf?_preprocess_of_withoutContinuation (h : Evaluates table fragments)
    (hlines : WithoutContinuation fragments) :
    faultOf? (preprocess table fragments).outcome = balanceFault? (numberedLines fragments) := by
  have hall : openSites ((visited table fragments).map Visit.line) =
      openSites (numberedLines fragments) := foldlM_visits rfl h hlines
  rw [faultOf?_preprocess h, balanceFault?, balanceFault?, hall]

/-- Preprocessing fails at the first evaluation that fails. Where none fails, it fails where the lines
that are read on their own are not balanced, and only there. Under another table it fails in the same
place as long as the same lines are read on their own, and so in any case when no definition is
continued. -/
theorem preprocess_balance (table : Macro.Table) (fragments : List Fragment) :
    (∀ visit ∈ visited table fragments, ∀ fault, visit.evaluationFault? = some fault →
      (preprocess table fragments).outcome = .error fault ∧ IsEvaluationFault fault) ∧
    (Evaluates table fragments →
      Verdict ((visited table fragments).map Visit.line)
        (faultOf? (preprocess table fragments).outcome) ∧
      (WithoutContinuation fragments →
        Verdict (numberedLines fragments) (faultOf? (preprocess table fragments).outcome)) ∧
      ∀ other, Evaluates other fragments →
        WithoutContinuation fragments ∨
          (visited other fragments).map Visit.line = (visited table fragments).map Visit.line →
        faultOf? (preprocess other fragments).outcome =
          faultOf? (preprocess table fragments).outcome) := by
  refine ⟨fun visit hvisit fault hfault => ?_, fun h => ⟨?_, fun hlines => ?_, ?_⟩⟩
  · obtain ⟨hrun, hevaluation⟩ := run_of_fault hvisit hfault
    refine ⟨?_, hevaluation⟩
    simp only [preprocess, Report.outcome_bind, hrun]
    rfl
  · rw [faultOf?_preprocess h]
    exact verdict_balanceFault? _
  · rw [faultOf?_preprocess_of_withoutContinuation h hlines]
    exact verdict_balanceFault? _
  · rintro other hother (hlines | hsame)
    · rw [faultOf?_preprocess_of_withoutContinuation h hlines,
        faultOf?_preprocess_of_withoutContinuation hother hlines]
    · rw [faultOf?_preprocess h, faultOf?_preprocess hother, hsame]

/-- Where a continued definition is read, the line behind it closes no group. So whether these lines
are balanced depends on the branch that holds the definition. -/
theorem not_forall_balance : ¬ ∀ (table other : Macro.Table) (fragments : List Fragment),
    Evaluates table fragments → Evaluates other fragments →
      faultOf? (preprocess other fragments).outcome =
        faultOf? (preprocess table fragments).outcome := by
  intro h
  -- The definition is skipped without `X`, and then the last line closes the group.
  let fragments : List Fragment := [⟨"#ifdef X\n#define A \\\n#endif\n".toList, "f".toList, 0⟩]
  have hskipped : Evaluates .empty fragments := by decide
  have hread : Evaluates (Macro.Table.empty.set ['X'] .flag) fragments := by decide
  have hsame := h _ _ fragments hskipped hread
  rw [faultOf?_preprocess hskipped, faultOf?_preprocess hread] at hsame
  exact absurd hsame (by decide)

end ShaderInterface.Preprocessing
