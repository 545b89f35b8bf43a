import ShaderInterface.Preprocessing.Source
import ShaderInterface.Proofs.Preprocessing.Structure
import ShaderInterface.Proofs.Text.Lines

/-!
# Lines in Other Places

Preprocessing looks at the place of a line only to tell it in faults and notices. When the lines of a
shader are moved to other places, faults and notices name these places, and nothing else changes: every
step does the same thing in the moved state, and so does every run.

Where the borders between fragments lie decides about places alone. Fragments of whole lines with the
same text are therefore preprocessed alike, wherever the text is cut: inside a group, inside a definition
that goes on in the next line, or twice at the same place.

## Main definitions

* `Fault.relocate`, `Notice.relocate`, `Report.relocate`: what is told of lines in other places.

## Main results

* `State.step_relocate`, `State.run_relocate`: moved lines are read alike.
* `relocate_preprocess`: so are the fragments of a shader.
* `preprocess_recut`: fragments with the same text are preprocessed alike.
-/

namespace ShaderInterface

open ShaderInterface.Text

/-! ## Telling other places -/

section

variable (move : Site → Site)

/-- A fault of a line that has been moved. -/
def Fault.relocate : Fault → Fault
  | .recursiveInclude path site => .recursiveInclude path (move site)
  | .unmatchedDirective directive site => .unmatchedDirective directive (move site)
  | .unterminatedConditional opener => .unterminatedConditional (move opener)
  | fault => fault

/-- A notice about a line that has been moved. -/
def Notice.relocate : Notice → Notice
  | .failure fault => .failure (fault.relocate move)
  | notice => notice

variable {α β : Type}

/-- An outcome for lines that have been moved, where `place` moves the lines in a result. -/
def relocateOutcome (place : α → β) (outcome : Except Fault α) : Except Fault β :=
  (outcome.map place).mapError (Fault.relocate move)

/-- A report on lines that have been moved, where `place` moves the lines in a result. -/
def Report.relocate (place : α → β) (report : Report α) : Report β :=
  ⟨report.notices.map (Notice.relocate move), relocateOutcome move place report.outcome⟩

end

variable {move : Site → Site} {α β γ δ : Type}

instance : Nonempty Site := ⟨⟨[], 0⟩⟩

/-- Outcomes that agree when their lines are moved in one of several ways have the same result, or faults
that differ in places alone. -/
theorem agree_of_relocateOutcome_eq {ι : Type} [Nonempty ι] {moves : ι → Site → Site}
    {first second : Except Fault α}
    (h : ∀ i, relocateOutcome (moves i) id first = relocateOutcome (moves i) id second) :
    (∃ result, first = .ok result ∧ second = .ok result) ∨
    ∃ fault other, first = .error fault ∧ second = .error other ∧
      ∀ i, fault.relocate (moves i) = other.relocate (moves i) := by
  obtain ⟨i⟩ := ‹Nonempty ι›
  rcases first with fault | result <;> rcases second with other | found
  · exact .inr ⟨fault, other, rfl, rfl, fun i => Except.error.inj (h i)⟩
  · cases h i
  · cases h i
  · cases h i
    exact .inl ⟨result, rfl, rfl⟩

namespace Report

/-- The report of a sequence is moved part by part. -/
theorem relocate_bind {place : α → β} {placeLast : γ → δ} {next : α → Report γ}
    {nextMoved : β → Report δ} (report : Report α)
    (h : ∀ result, (next result).relocate move placeLast = nextMoved (place result)) :
    (report >>= next).relocate move placeLast = report.relocate move place >>= nextMoved := by
  obtain ⟨notices, outcome⟩ := report
  cases outcome with
  | error fault => rfl
  | ok result =>
    show Report.relocate move placeLast ⟨notices ++ (next result).notices, (next result).outcome⟩ =
      ⟨_ ++ (nextMoved (place result)).notices, (nextMoved (place result)).outcome⟩
    rw [← h result, relocate, List.map_append]
    rfl

/-- Where the first part of a sequence tells no places, only the rest is moved. -/
theorem relocate_bind_of_eq {report : Report α} {next nextMoved : α → Report γ} {place : γ → γ}
    (hreport : report.relocate move id = report)
    (h : ∀ result, (next result).relocate move place = nextMoved result) :
    (report >>= next).relocate move place = report >>= nextMoved :=
  (relocate_bind report h).trans (congrArg (· >>= nextMoved) hreport)

/-- A list of reports that tell no places tells none. -/
theorem relocate_mapM {f : α → Report β} (h : ∀ item, (f item).relocate move id = f item)
    (items : List α) : (items.mapM f).relocate move id = items.mapM f := by
  induction items with
  | nil => rfl
  | cons item rest ih =>
    rw [List.mapM_cons]
    exact relocate_bind_of_eq (h item) fun _ => relocate_bind_of_eq ih fun _ => rfl

end Report

/-! ## Conditions -/

/-- Whether a term holds does not depend on any place. -/
theorem Term.holds_relocate (table : Macro.Table) (line : Text) (term : Term) :
    (term.holds table line).relocate move id = term.holds table line := by
  have hvalue (text : Text) : (value table line text).relocate move id = value table line text := by
    rw [value]
    cases Arithmetic.evaluate table text <;> rfl
  cases term with
  | defined negated name => rfl
  | comparison left kind right =>
    exact Report.relocate_bind_of_eq (hvalue left) fun _ =>
      Report.relocate_bind_of_eq (hvalue right) fun _ => rfl
  | arithmetic text => exact Report.relocate_bind_of_eq (hvalue text) fun _ => rfl

/-- Whether a condition holds does not depend on any place. -/
theorem Condition.holds_relocate (table : Macro.Table) (line : Text) (condition : Condition) :
    (condition.holds table line).relocate move id = condition.holds table line :=
  Report.relocate_bind_of_eq (Report.relocate_mapM (Report.relocate_mapM (Term.holds_relocate table line))
    condition) fun _ => rfl

namespace Preprocessing

/-! ## States -/

/-- A group whose opener has been moved. -/
def Group.relocate (move : Site → Site) (group : Group) : Group :=
  { group with opener := move group.opener }

/-- A state that has come about through lines that have been moved. -/
def State.relocate (move : Site → Site) (state : State) : State :=
  { state with groups := state.groups.map (Group.relocate move) }

@[simp]
theorem enabled_relocate (groups : List Group) :
    enabled (groups.map (Group.relocate move)) = enabled groups := by
  cases groups <;> rfl

namespace State

variable (state : State) (site : Site) (line : Text)

theorem conditionHolds_relocate (matters : Bool) (condition : Text) :
    (state.relocate move).conditionHolds matters condition line =
      (state.conditionHolds matters condition line).relocate move id := by
  unfold conditionHolds
  split
  · exact (Condition.holds_relocate state.table line _).symm
  · rfl

/-- The innermost group is found in another place. -/
theorem innermost_relocate (directive : Text) :
    (state.relocate move).innermost directive (move site) =
      (state.innermost directive site).relocate move
        (Prod.map (Group.relocate move) (List.map (Group.relocate move))) := by
  obtain ⟨table, groups, continued⟩ := state
  cases groups <;> rfl

theorem nextBranch_relocate (directive : Text) {decide moved : Bool → Report Bool}
    (h : ∀ eligible, (decide eligible).relocate move id = moved eligible) :
    (state.relocate move).nextBranch directive (move site) moved =
      (state.nextBranch directive site decide).relocate move (State.relocate move) := by
  rw [nextBranch, innermost_relocate]
  -- Whether the next branch is taken is decided with groups that have been moved.
  refine Eq.symm (Report.relocate_bind _ ?_)
  rintro ⟨group, outer⟩
  show Report.relocate move _ (decide (enabled outer && !group.taken) >>= _) =
    (moved (enabled (outer.map (Group.relocate move)) && !group.taken) >>= _)
  rw [enabled_relocate, ← h]
  exact Report.relocate_bind _ fun _ => rfl

theorem closeGroup_relocate :
    (state.relocate move).closeGroup (move site) =
      (state.closeGroup site).relocate move (State.relocate move) := by
  rw [closeGroup, innermost_relocate]
  refine Eq.symm (Report.relocate_bind _ ?_)
  intro groups
  rfl

/-- A directive for groups does the same thing in another place. -/
theorem obeyGroupDirective?_relocate (directive : Directive) :
    (state.relocate move).obeyGroupDirective? (move site) line directive =
      (state.obeyGroupDirective? site line directive).map
        (Report.relocate move (State.relocate move)) := by
  have henabled : enabled (state.relocate move).groups = enabled state.groups :=
    enabled_relocate state.groups
  cases directive with
  | ifTrue condition =>
    simp only [obeyGroupDirective?, henabled, conditionHolds_relocate, Option.map_some]
    refine congrArg some (Eq.symm (Report.relocate_bind _ ?_))
    intro taken
    rfl
  | ifDefined name | ifUndefined name =>
    simp only [obeyGroupDirective?, henabled]
    rfl
  | elseIf condition =>
    exact congrArg some (state.nextBranch_relocate site _ fun eligible =>
      (state.conditionHolds_relocate line eligible condition).symm)
  | otherwise => exact congrArg some (state.nextBranch_relocate site _ fun _ => rfl)
  | endIf => exact congrArg some (state.closeGroup_relocate site)
  | define | undefine | other => rfl

/-! ## Steps and runs -/

/-- A definition does not depend on any place. -/
theorem define_relocate (definition : Text) :
    (state.relocate move).define definition line =
      (state.define definition line).relocate move (State.relocate move) := by
  have htable : (state.relocate move).table = state.table := rfl
  unfold define
  cases Definition.ofText? definition with
  | none => rfl
  | some definition =>
    simp only [htable]
    cases definition.evaluate state.table <;> rfl

/-- A line is read in the same way in another place. -/
theorem step_relocate (raw : Text) :
    (state.relocate move).step (move site) raw =
      (state.step site raw).relocate move (Prod.map id (State.relocate move)) := by
  have hcontinued : (state.relocate move).continued = state.continued := rfl
  have henabled : enabled (state.relocate move).groups = enabled state.groups :=
    enabled_relocate state.groups
  simp only [step, hcontinued, henabled, obeyGroupDirective?_relocate]
  split
  · rfl
  cases state.continued with
  | some name => rfl
  | none =>
    cases state.obeyGroupDirective? site raw.trim
        ((Directive.ofLine? raw.trim).getD .other) with
    | some report =>
      refine Eq.symm (Report.relocate_bind report ?_)
      intro next
      rfl
    | none =>
      simp only [Option.map_none]
      split
      · rfl
      cases (Directive.ofLine? raw.trim).getD .other with
      | define definition =>
        simp only [define_relocate]
        refine Eq.symm (Report.relocate_bind _ ?_)
        intro next
        rfl
      | _ => rfl

/-- Lines are read in the same way in other places. -/
theorem run_relocate (located : List (Site × Text)) :
    (state.relocate move).run (located.map (Prod.map move id)) =
      (state.run located).relocate move (Prod.map id (State.relocate move)) := by
  induction located generalizing state with
  | nil => rfl
  | cons entry rest ih =>
    obtain ⟨site, raw⟩ := entry
    show ((state.relocate move).step (move site) raw >>= _) = _
    rw [step_relocate]
    -- The run goes on in the moved state with lines that have been moved.
    refine (Report.relocate_bind _ fun (kept, next) => ?_).symm
    show _ = ((next.relocate move).run (rest.map (Prod.map move id)) >>= _)
    rw [ih]
    exact Report.relocate_bind _ fun _ => rfl

end State

/-! ## Shaders -/

/-- That groups are closed does not depend on any place. -/
theorem requireClosed_relocate (groups : List Group) :
    requireClosed (groups.map (Group.relocate move)) = (requireClosed groups).relocate move id := by
  cases groups <;> rfl

/-- Preprocessing moved lines. -/
theorem relocate_preprocess (move : Site → Site) (table : Macro.Table) (fragments : List Fragment) :
    (preprocess table fragments).relocate move id = do
      let (kept, state) ←
        (State.initial table).run ((numberedLines fragments).map (Prod.map move id))
      requireClosed state.groups
      return { text := replaceWords state.table (unlines kept), table := state.table } := by
  have hinitial : State.initial table = (State.initial table).relocate move := rfl
  rw [hinitial, State.run_relocate]
  refine Report.relocate_bind _ fun (kept, state) => ?_
  show Report.relocate move id (requireClosed state.groups >>= _) =
    (requireClosed (state.groups.map (Group.relocate move)) >>= _)
  rw [requireClosed_relocate]
  exact Report.relocate_bind _ fun _ => rfl

/-- The lines of fragments are those of their text. -/
theorem snd_numberedLines_of_endsLine {fragments : List Fragment}
    (h : ∀ fragment ∈ fragments, EndsLine fragment.source) :
    (numberedLines fragments).map Prod.snd = lines (fragments.flatMap Fragment.source) := by
  rw [map_snd_numberedLines, lines_flatMap h]

/-- The reports on fragments that hold the same text agree when all places are taken to be one and the
same, with their notices. -/
theorem relocate_preprocess_eq (table : Macro.Table) {first second : List Fragment}
    (hfirst : ∀ fragment ∈ first, EndsLine fragment.source)
    (hsecond : ∀ fragment ∈ second, EndsLine fragment.source)
    (hsame : first.flatMap Fragment.source = second.flatMap Fragment.source) (place : Site) :
    (preprocess table first).relocate (fun _ => place) id =
      (preprocess table second).relocate (fun _ => place) id := by
  have hmoved (located : List (Site × Text)) : located.map (Prod.map (fun _ => place) id) =
      (located.map Prod.snd).map fun line => (place, line) := by
    rw [List.map_map]
    rfl
  rw [relocate_preprocess, relocate_preprocess, hmoved, hmoved,
    snd_numberedLines_of_endsLine hfirst, snd_numberedLines_of_endsLine hsecond, hsame]

/-- Fragments that hold the same text in whole lines are preprocessed alike, wherever the text is cut.
They have the same result, or faults that differ in places alone. -/
theorem preprocess_recut (table : Macro.Table) (first second : List Fragment)
    (hfirst : ∀ fragment ∈ first, EndsLine fragment.source)
    (hsecond : ∀ fragment ∈ second, EndsLine fragment.source)
    (hsame : first.flatMap Fragment.source = second.flatMap Fragment.source) :
    (∃ result, (preprocess table first).outcome = .ok result ∧
      (preprocess table second).outcome = .ok result) ∨
    ∃ fault other, (preprocess table first).outcome = .error fault ∧
      (preprocess table second).outcome = .error other ∧
      ∀ place, fault.relocate (fun _ => place) = other.relocate (fun _ => place) := by
  refine agree_of_relocateOutcome_eq fun place => ?_
  exact congrArg Report.outcome (relocate_preprocess_eq table hfirst hsecond hsame place)

/-- A definition and a group that are cut into fragments, one of them empty. -/
def exampleCut : List Fragment :=
  [⟨"#define A x \\\n".toList, "a".toList, 0⟩, ⟨[], "b".toList, 0⟩,
    ⟨" y\r\n#ifdef A\n".toList, "b".toList, 4⟩, ⟨"A\n#endif\n".toList, "a".toList, 2⟩]

/-- The text of these fragments in one piece. -/
def exampleWhole : List Fragment :=
  [⟨"#define A x \\\n y\r\n#ifdef A\nA\n#endif\n".toList, "c".toList, 0⟩]

theorem preprocess_exampleCut :
    (∀ fragment ∈ exampleCut, EndsLine fragment.source) ∧
    (∀ fragment ∈ exampleWhole, EndsLine fragment.source) ∧
    exampleCut.flatMap Fragment.source = exampleWhole.flatMap Fragment.source ∧
    ((∃ result, (preprocess .empty exampleCut).outcome = .ok result ∧
      (preprocess .empty exampleWhole).outcome = .ok result) ∨
    ∃ fault other, (preprocess .empty exampleCut).outcome = .error fault ∧
      (preprocess .empty exampleWhole).outcome = .error other ∧
      ∀ place, fault.relocate (fun _ => place) = other.relocate (fun _ => place)) := by
  have hcut : ∀ fragment ∈ exampleCut, EndsLine fragment.source := by decide
  have hwhole : ∀ fragment ∈ exampleWhole, EndsLine fragment.source := by decide
  have hsame : exampleCut.flatMap Fragment.source = exampleWhole.flatMap Fragment.source := by
    decide
  exact ⟨hcut, hwhole, hsame, preprocess_recut .empty _ _ hcut hwhole hsame⟩

end Preprocessing

end ShaderInterface
