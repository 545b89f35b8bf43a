import Mathlib.Tactic.Common
import ShaderInterface.Proofs.Outcome
import ShaderInterface.Proofs.Preprocessing.Document

/-!
# Steps of the Line Machine

What one step does to the state, one statement for each kind of line, and what a run does to the
lines of a text that is cut in two. The kind of a line is told by its directive, as it is in
documents.
-/

namespace ShaderInterface.Preprocessing

open ShaderInterface.Text

/-- A line that gives a directive of its own is no comment line. -/
theorem isCommentLine_eq_false {raw : Text} (h : directiveOf raw ≠ .other) :
    isCommentLine raw.trim = false := by
  -- A directive starts with a number sign, a comment line with a slash.
  have hhead : raw.trim.head? = some '#' := by
    by_contra hne
    exact h (by simp [directiveOf, Directive.ofLine?, hne])
  cases hline : raw.trim with
  | nil => simp [hline] at hhead
  | cons c rest =>
    obtain rfl : c = '#' := by simpa [hline] using hhead
    rfl

namespace State

variable {state : State} {site : Site} {raw : Text}

/-! ## Lines that stand anywhere -/

/-- A comment line changes nothing. -/
theorem step_comment (h : isCommentLine raw.trim = true) :
    (state.step site raw).outcome = .ok (none, state) := by
  simp [step, h]

/-- A line that continues a definition is put behind it. -/
theorem step_continuation {name : Text} (h : isCommentLine raw.trim = false)
    (hcontinued : state.continued = some name) :
    (state.step site raw).outcome = .ok (none, state.continueDefinition name raw.trim) := by
  simp [step, h, hcontinued]

/-- Where no definition is continued, a directive for groups is obeyed. -/
theorem step_groupDirective {report : Report State} (hcontinued : state.continued = none)
    (hdirective : directiveOf raw ≠ .other)
    (hgroup : state.obeyGroupDirective? site raw.trim (directiveOf raw) = some report) :
    (state.step site raw).outcome = report.outcome.map (none, ·) := by
  rw [directiveOf] at hgroup
  simp only [step, isCommentLine_eq_false hdirective, hcontinued, hgroup, Bool.false_eq_true,
    ↓reduceIte, Report.outcome_bind]
  rfl

/-- A condition is asked only where the answer matters. -/
theorem outcome_conditionHolds (matters : Bool) (condition line : Text) :
    (state.conditionHolds matters condition line).outcome =
      if matters then ((Condition.ofText condition).holds state.table line).outcome
      else .ok false := by
  rw [conditionHolds]
  split <;> rfl

/-- A group is opened with its first branch taken if the condition holds, which is asked only where
lines are read. -/
theorem step_open (hcontinued : state.continued = none)
    (hopens : opensGroup (directiveOf raw) = true) :
    (state.step site raw).outcome =
      (if enabled state.groups then branchHolds state.table raw else .ok false).map
        fun taken => (none, state.openGroup site taken) := by
  have hdirective : directiveOf raw ≠ .other := by
    intro h
    simp [h, opensGroup] at hopens
  rw [branchHolds]
  -- The machine asks for a name even where lines are not read, which makes no difference.
  cases h : directiveOf raw with
  | ifTrue condition =>
    rw [step_groupDirective hcontinued hdirective (by rw [h]; rfl), ← outcome_conditionHolds,
      Report.outcome_bind]
    cases (state.conditionHolds (enabled state.groups) condition raw.trim).outcome <;> rfl
  | ifDefined name =>
    rw [step_groupDirective hcontinued hdirective (by rw [h]; rfl)]
    cases enabled state.groups <;> rfl
  | ifUndefined name =>
    rw [step_groupDirective hcontinued hdirective (by rw [h]; rfl)]
    cases enabled state.groups <;> rfl
  | _ => simp [h, opensGroup] at hopens

/-- Inside a group there is a next branch to decide about. -/
theorem nextBranch_of_groups {group : Group} {outer : List Group}
    (hgroups : state.groups = group :: outer) (directive : Text) (site : Site)
    (decide : Bool → Report Bool) :
    state.nextBranch directive site decide = do
      let taken ← decide (enabled outer && !group.taken)
      return { state with
        groups := { group with enabled := taken, taken := group.taken || taken } :: outer } := by
  rw [nextBranch, innermost, hgroups]
  rfl

/-- A directive that needs a group is refused where none is open. -/
theorem outcome_innermost_bind {α : Type} (hgroups : state.groups = []) (directive : Text) (site : Site)
    (next : Group × List Group → Report α) :
    (state.innermost directive site >>= next).outcome =
      .error (.unmatchedDirective directive site) := by
  rw [innermost, hgroups]
  rfl

/-- The next branch of a group is taken if its condition holds, which is asked only when the branch
can be taken. -/
theorem step_elseIf {group : Group} {outer : List Group} {condition : Text}
    (hcontinued : state.continued = none) (hgroups : state.groups = group :: outer)
    (h : directiveOf raw = .elseIf condition) :
    (state.step site raw).outcome =
      (if enabled outer && !group.taken then branchHolds state.table raw else .ok false).map
        fun taken => (none, { state with
          groups := { group with enabled := taken, taken := group.taken || taken } :: outer }) := by
  have hdirective : directiveOf raw ≠ .other := by simp [h]
  rw [step_groupDirective hcontinued hdirective (by rw [h]; rfl), branchHolds, h,
    nextBranch_of_groups hgroups, Report.outcome_bind]
  simp only
  rw [← outcome_conditionHolds]
  cases (state.conditionHolds (enabled outer && !group.taken) condition raw.trim).outcome <;> rfl

/-- The last branch of a group is taken if it can be. -/
theorem step_otherwise {group : Group} {outer : List Group}
    (hcontinued : state.continued = none) (hgroups : state.groups = group :: outer)
    (h : directiveOf raw = .otherwise) :
    (state.step site raw).outcome =
        let taken := enabled outer && !group.taken
        .ok (none, { state with
          groups := { group with enabled := taken, taken := group.taken || taken } :: outer }) := by
  have hdirective : directiveOf raw ≠ .other := by simp [h]
  rw [step_groupDirective hcontinued hdirective (by rw [h]; rfl), nextBranch_of_groups hgroups]
  rfl

/-- The end of a group leaves those around it. -/
theorem step_endIf {group : Group} {outer : List Group}
    (hcontinued : state.continued = none) (hgroups : state.groups = group :: outer)
    (h : directiveOf raw = .endIf) :
    (state.step site raw).outcome = .ok (none, { state with groups := outer }) := by
  have hdirective : directiveOf raw ≠ .other := by simp [h]
  rw [step_groupDirective hcontinued hdirective (by rw [h]; rfl), closeGroup, innermost, hgroups]
  rfl

/-! ## Lines that are skipped or read -/

/-- Whether a directive opens, divides or closes a group. -/
def concernsGroups : Directive → Bool
  | .ifTrue _ | .ifDefined _ | .ifUndefined _ | .elseIf _ | .otherwise | .endIf => true
  | _ => false

/-- Directives that do not concern groups are not obeyed as if they did. -/
theorem obeyGroupDirective?_eq_none {directive : Directive} (line : Text)
    (h : concernsGroups directive = false) :
    state.obeyGroupDirective? site line directive = none := by
  cases directive <;> first | rfl | simp [concernsGroups] at h

/-- Outside of the branches that are taken, a line without a directive for groups changes nothing. -/
theorem step_skipped (hcontinued : state.continued = none) (henabled : enabled state.groups = false)
    (h : concernsGroups (directiveOf raw) = false) :
    (state.step site raw).outcome = .ok (none, state) := by
  have hgroup : state.obeyGroupDirective? site raw.trim (directiveOf raw) = none :=
    obeyGroupDirective?_eq_none _ h
  rw [directiveOf] at hgroup
  by_cases hcomment : isCommentLine raw.trim = true
  · exact step_comment hcomment
  · simp [step, hcomment, hcontinued, hgroup, henabled]

/-- A plain line is kept unless it is blank. -/
theorem step_plain (hcontinued : state.continued = none) (henabled : enabled state.groups = true)
    (hcomment : isCommentLine raw.trim = false) (h : directiveOf raw = .other) :
    (state.step site raw).outcome = .ok (if raw.trim.isEmpty then none else some raw, state) := by
  rw [directiveOf] at h
  simp [step, hcomment, hcontinued, henabled, h, obeyGroupDirective?]

/-- A macro is removed, and the others stay as they are. -/
theorem step_undefine {name : Text} (hcontinued : state.continued = none)
    (henabled : enabled state.groups = true) (h : directiveOf raw = .undefine name) :
    (state.step site raw).outcome = .ok (none, { state with table := state.table.without name }) := by
  rw [← Macro.Table.erase_eq_without]
  have hcomment : isCommentLine raw.trim = false := isCommentLine_eq_false (by simp [h])
  rw [directiveOf] at h
  simp [step, hcomment, hcontinued, henabled, h, obeyGroupDirective?]

/-- A definition is evaluated; one without a proper name is passed over. -/
theorem step_define {text : Text} (hcontinued : state.continued = none)
    (henabled : enabled state.groups = true) (h : directiveOf raw = .define text) :
    (state.step site raw).outcome =
      match Definition.ofText? text with
      | none => .ok (none, state)
      | some definition =>
        ((definition.evaluate state.table).mapError (.invalidEquation raw.trim)).map fun value =>
          (none, { state with
            table := state.table.set definition.name value
            continued := if isContinued raw.trim then some definition.name else none }) := by
  have hcomment : isCommentLine raw.trim = false := isCommentLine_eq_false (by simp [h])
  rw [directiveOf] at h
  have hstep : (state.step site raw).outcome = (state.define text raw.trim).outcome.map (none, ·) := by
    simp only [step, hcomment, hcontinued, henabled, h, obeyGroupDirective?,
      Bool.false_eq_true, ↓reduceIte, Bool.not_true, Report.outcome_bind]
    rfl
  -- The notice about a definition without a name is no part of the outcome.
  rw [hstep, define]
  cases Definition.ofText? text with
  | none => rfl
  | some definition =>
    simp only
    cases definition.evaluate state.table <;> rfl

/-! ## Runs -/

/-- A run takes a step with its first line and goes on from there. -/
theorem run_cons (rest : List (Site × Text)) :
    (state.run ((site, raw) :: rest)).outcome = do
      let (kept, next) ← (state.step site raw).outcome
      let (following, last) ← (next.run rest).outcome
      return (kept.toList ++ following, last) := by
  simp only [run, Report.outcome_bind]
  rfl

/-- A run over two texts is a run over the first one that goes on with the second one. -/
theorem run_append (first second : List (Site × Text)) :
    (state.run (first ++ second)).outcome = do
      let (kept, next) ← (state.run first).outcome
      let (following, last) ← (next.run second).outcome
      return (kept ++ following, last) := by
  induction first generalizing state with
  | nil =>
    exact (bind_pure (state.run second).outcome).symm
  | cons entry rest ih =>
    obtain ⟨site, raw⟩ := entry
    -- Both sides take the same step first, and what is kept is put together from the right.
    rw [List.cons_append, run_cons, run_cons]
    simp only [ih, bind_assoc, pure_bind, List.append_assoc]

/-- A line that is not kept only changes the state in which the run goes on. -/
theorem run_cons_of_step {next : State} (rest : List (Site × Text))
    (h : (state.step site raw).outcome = .ok (none, next)) :
    (state.run ((site, raw) :: rest)).outcome = (next.run rest).outcome := by
  rw [run_cons, h]
  exact bind_pure (next.run rest).outcome

/-- Lines of which none is kept only change the state in which the run goes on. -/
theorem run_append_of_run {next : State} {first : List (Site × Text)}
    (second : List (Site × Text)) (h : (state.run first).outcome = .ok ([], next)) :
    (state.run (first ++ second)).outcome = (next.run second).outcome := by
  rw [run_append, h]
  exact bind_pure (next.run second).outcome

end State

end ShaderInterface.Preprocessing
