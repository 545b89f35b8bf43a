import ShaderInterface.Proofs.Preprocessing.Predefinition

/-!
# Lines that Continue a Definition

A definition is joined to the next line by a backslash at its end, and that line to the one behind it in
the same way; comment lines between them count for nothing. The lines that are joined to a definition end
up in the value of its macro, whatever they look like: none of them is kept or obeyed.

This rests on the name that the first line gives. A definition without a proper name is passed over by
itself, and the lines that are joined to it are read as if it was not there.

## Main definitions

* `Joins`: the lines that are joined to a line which ends in a backslash or not.
* `Gap`: a shader with a place between two of its lines, which can be filled with other lines.

## Main results

* `run_definition`: a definition and the lines that are joined to it change the value of its macro only.
* `Gap.agree_fill`: lines that change nothing where they stand can be taken out of a shader.
* `preprocess_passedOver`: a definition without a proper name can be taken out, but only by itself.
-/

namespace ShaderInterface.Preprocessing

open ShaderInterface.Text

variable {table : Macro.Table} {groups : List Group} {located : List (Site × Text)}
  {raw text : Text} {joined : List Text} {continued last : Bool}

/-! ## Joined lines -/

/-- Lines that are joined, one by one, to a line that ends in a backslash or not. Whether one more line
would be joined to them comes last. A comment line joins its neighbours. -/
inductive Joins : Bool → List Text → Bool → Prop where
  | nil (continued : Bool) : Joins continued [] continued
  | cons {raw : Text} {rest : List Text} {last : Bool} :
      Joins (isCommentLine raw.trim || isContinued raw.trim) rest last → Joins true (raw :: rest) last

/-- The lines without comment lines among them. -/
def withoutComments (joined : List Text) : List Text :=
  joined.filter fun raw => !isCommentLine raw.trim

/-- The lines that are joined to a definition are put behind its value, in order. -/
theorem run_joined {name : Text} {value : Macro.Value} (h : Joins continued joined last)
    (hlines : located.map Prod.snd = joined) :
    ((State.mk (table.set name value) groups (if continued then some name else none)).run
        located).outcome =
      .ok ([], ⟨table.set name ((withoutComments joined).foldl continueValue value), groups,
        if last then some name else none⟩) := by
  induction h generalizing value located with
  | nil continued =>
    rw [List.map_eq_nil_iff] at hlines
    rw [hlines]
    rfl
  | cons _ ih =>
    obtain ⟨⟨site, raw⟩, behind, rfl, rfl, hbehind⟩ := List.map_eq_cons_iff.1 hlines
    by_cases hcomment : isCommentLine raw.trim = true
    · -- A comment line leaves the state as it is, so that the next line is joined as well.
      rw [hcomment, Bool.true_or] at ih
      rw [State.run_cons_of_step _ (State.step_comment hcomment), withoutComments,
        List.filter_cons_of_neg (by simpa using hcomment)]
      exact ih hbehind
    · rw [Bool.not_eq_true] at hcomment
      rw [hcomment, Bool.false_or] at ih
      rw [State.run_cons_of_step _ (State.step_continuation hcomment rfl), continueDefinition_set,
        withoutComments, List.filter_cons_of_pos (by simpa using hcomment), List.foldl_cons]
      exact ih hbehind

/-- A definition and the lines that are joined to it give a value to its macro, and do nothing else. -/
theorem run_definition {definition : Definition} (henabled : enabled groups = true)
    (hdirective : directiveOf raw = .define text)
    (hdefinition : Definition.ofText? text = some definition)
    (h : Joins (isContinued raw.trim) joined last)
    (hlines : located.map Prod.snd = raw :: joined) :
    ((State.ready table groups).run located).outcome =
      ((definition.evaluate table).mapError (.invalidEquation raw.trim)).map fun value =>
        ([], ⟨table.set definition.name ((withoutComments joined).foldl continueValue value), groups,
          if last then some definition.name else none⟩) := by
  obtain ⟨⟨site, _⟩, behind, rfl, rfl, hbehind⟩ := List.map_eq_cons_iff.1 hlines
  have hstep : ((State.ready table groups).step site _).outcome = _ :=
    State.step_define rfl henabled hdirective
  rw [hdefinition] at hstep
  change _ = Except.map _ ((definition.evaluate table).mapError _) at hstep
  cases hvalue : definition.evaluate table with
  | error cause =>
    rw [hvalue] at hstep
    rw [State.run_cons, hstep]
    rfl
  | ok value =>
    rw [hvalue] at hstep
    rw [State.run_cons_of_step _ hstep]
    exact run_joined h hbehind

/-- A definition without a proper name changes nothing. -/
theorem step_passedOver {state : State} {site : Site} (hcontinued : state.continued = none)
    (henabled : enabled state.groups = true) (hdirective : directiveOf raw = .define text)
    (hmalformed : Definition.ofText? text = none) :
    (state.step site raw).outcome = .ok (none, state) := by
  rw [State.step_define hcontinued henabled hdirective, hmalformed]

/-! ## Taking lines out of a shader -/

/-- A shader with a gap between two of its lines. -/
structure Gap where
  /-- The fragments in front of the one with the gap. -/
  earlier : List Fragment
  /-- The file of the fragment with the gap. -/
  file : Text
  /-- How many lines of the file stand before the fragment. -/
  offset : Nat
  /-- The lines of the fragment in front of the gap. -/
  before : Text
  /-- The lines in front of the gap are whole. -/
  endsLine : EndsLine before
  /-- The text of the fragment behind the gap. -/
  after : Text
  /-- The fragments behind the one with the gap. -/
  later : List Fragment

namespace Gap

variable (gap : Gap)

/-- The shader with a block of lines in the gap. -/
def fill (block : Text) : List Fragment :=
  gap.earlier ++ ⟨gap.before ++ (block ++ gap.after), gap.file, gap.offset⟩ :: gap.later

/-- The fragments that end at the gap. -/
def front : List Fragment :=
  gap.earlier ++ [⟨gap.before, gap.file, gap.offset⟩]

/-- Under a table, a line in the gap is read on its own, unless a line in front of the gap is a fault. -/
def IsRead (table : Macro.Table) : Prop :=
  ∀ kept state, ((State.initial table).run (numberedLines gap.front)).outcome = .ok (kept, state) →
    state.continued = none ∧ enabled state.groups = true

/-- A block is made of whole lines, or nothing stands behind it. -/
def Holds (block : Text) : Prop :=
  EndsLine block ∨ gap.after = []

/-- The lines of a shader with a block in its gap: those in front of the gap, those of the block and those
behind it. -/
theorem map_atLine_fill {block : Text} (h : gap.Holds block) (line : Nat) :
    (numberedLines (gap.fill block)).map (Prod.map (atLine line) id) =
      (numberedLines gap.front).map (Prod.map (atLine line) id) ++
        ((lines block).map (fun raw => (⟨gap.file, line⟩, raw)) ++
          (numberedLines (⟨gap.after, gap.file, gap.offset⟩ :: gap.later)).map
            (Prod.map (atLine line) id)) := by
  have hbehind : lines (block ++ gap.after) = lines block ++ lines gap.after := by
    rcases h with hends | hnil
    · exact lines_append hends _
    · rw [hnil, List.append_nil]
      exact (List.append_nil _).symm
  simp only [map_atLine_numberedLines, fill, front, List.flatMap_append, List.flatMap_cons,
    List.flatMap_nil, List.append_nil, lines_append gap.endsLine, hbehind, List.map_append,
    List.append_assoc]

/-- In front of the gap, all that depends on the numbers of lines are faults and groups. -/
theorem IsRead.atLine {gap : Gap} {table : Macro.Table} (h : gap.IsRead table) {line : Nat}
    {kept : List Text} {state : State}
    (hrun : ((State.initial table).run
      ((numberedLines gap.front).map (Prod.map (atLine line) id))).outcome = .ok (kept, state)) :
    state.continued = none ∧ enabled state.groups = true := by
  have houtcome : ((State.initial table).run
        ((numberedLines gap.front).map (Prod.map (Preprocessing.atLine line) id))).outcome =
      relocateOutcome (Preprocessing.atLine line)
        (Prod.map id (State.relocate (Preprocessing.atLine line)))
        ((State.initial table).run (numberedLines gap.front)).outcome :=
    congrArg Report.outcome (State.run_relocate (State.initial table) (numberedLines gap.front))
  rw [hrun] at houtcome
  cases hfront : ((State.initial table).run (numberedLines gap.front)).outcome with
  | error fault =>
    rw [hfront] at houtcome
    cases houtcome
  | ok result =>
    obtain ⟨before, start⟩ := result
    rw [hfront] at houtcome
    obtain ⟨rfl, rfl⟩ := Prod.mk.inj (Except.ok.inj houtcome)
    obtain ⟨hcontinued, henabled⟩ := h _ start hfront
    exact ⟨hcontinued, (enabled_relocate start.groups).trans henabled⟩

end Gap

/-- Outcomes that differ at most in the numbers of lines: they have the same result, or faults that are the
same up to these numbers. -/
def AgreeUpToLines (first second : Except Fault Source) : Prop :=
  (∃ result, first = .ok result ∧ second = .ok result) ∨
  ∃ fault other, first = .error fault ∧ second = .error other ∧
    ∀ line, fault.relocate (atLine line) = other.relocate (atLine line)

/-- Lines that change nothing where they stand can be taken out of a shader. -/
theorem Gap.agree_fill {gap : Gap} {block : Text} (hgap : gap.IsRead table) (hblock : gap.Holds block)
    (hnone : ∀ (state : State) (site : Site), state.continued = none → enabled state.groups = true →
      (state.run ((lines block).map (site, ·))).outcome = .ok ([], state)) :
    AgreeUpToLines (preprocess table (gap.fill block)).outcome
      (preprocess table (gap.fill [])).outcome := by
  refine agree_of_relocateOutcome_eq fun line => ?_
  show ((preprocess table (gap.fill block)).relocate (Preprocessing.atLine line) id).outcome =
    ((preprocess table (gap.fill [])).relocate (Preprocessing.atLine line) id).outcome
  -- Up to the gap both runs are the same, and then the block leaves the state as it is.
  have hrun : ((State.initial table).run
        ((numberedLines (gap.fill block)).map (Prod.map (Preprocessing.atLine line) id))).outcome =
      ((State.initial table).run
        ((numberedLines (gap.fill [])).map (Prod.map (Preprocessing.atLine line) id))).outcome := by
    rw [gap.map_atLine_fill hblock, gap.map_atLine_fill (.inl (.inl rfl)), State.run_append,
      State.run_append]
    cases hfront : ((State.initial table).run
        ((numberedLines gap.front).map (Prod.map (Preprocessing.atLine line) id))).outcome with
    | error fault => rfl
    | ok result =>
      obtain ⟨kept, state⟩ := result
      obtain ⟨hcontinued, henabled⟩ := hgap.atLine hfront
      have hbehind := State.run_append_of_run
        ((numberedLines (⟨gap.after, gap.file, gap.offset⟩ :: gap.later)).map
          (Prod.map (Preprocessing.atLine line) id)) (hnone state ⟨gap.file, line⟩ hcontinued henabled)
      show (state.run _).outcome >>= _ = (state.run _).outcome >>= _
      rw [hbehind]
      rfl
  rw [relocate_preprocess, relocate_preprocess, Report.outcome_bind, Report.outcome_bind, hrun]

/-! ## Definitions without a proper name -/

/-- A definition without a proper name can be taken out of a shader where it is read. This is so whether it
is continued or not, so that the lines which are joined to it stay behind. Where the name is proper, the
lines that are joined to the definition give a value to this name, and do nothing else. -/
theorem preprocess_passedOver (table : Macro.Table) :
    (∀ (gap : Gap) (block raw text : Text), gap.IsRead table → gap.Holds block →
      lines block = [raw] → directiveOf raw = .define text → Definition.ofText? text = none →
      AgreeUpToLines (preprocess table (gap.fill block)).outcome
        (preprocess table (gap.fill [])).outcome) ∧
    ∀ (groups : List Group) (raw text : Text) (definition : Definition) (joined : List Text)
      (last : Bool) (located : List (Site × Text)), enabled groups = true →
      directiveOf raw = .define text → Definition.ofText? text = some definition →
      Joins (isContinued raw.trim) joined last → located.map Prod.snd = raw :: joined →
      (∃ cause, ((State.ready table groups).run located).outcome =
        .error (.invalidEquation raw.trim cause)) ∨
      ∃ value, ((State.ready table groups).run located).outcome =
        .ok ([], ⟨table.set definition.name value, groups,
          if last then some definition.name else none⟩) := by
  constructor
  · intro gap block raw text hgap hblock hlines hdirective hmalformed
    refine Gap.agree_fill hgap hblock fun state site hcontinued henabled => ?_
    rw [hlines]
    exact State.run_cons_of_step [] (step_passedOver hcontinued henabled hdirective hmalformed)
  · intro groups raw text definition joined last located henabled hdirective hdefinition hjoins hlines
    rw [run_definition henabled hdirective hdefinition hjoins hlines]
    cases definition.evaluate table with
    | error cause => exact .inl ⟨cause, rfl⟩
    | ok value => exact .inr ⟨_, rfl⟩

/-- A shader with a gap in the taken branch of a group, in front of a line that holds a name. -/
def exampleGap : Gap where
  earlier := [⟨"#define A 4\n".toList, "inner".toList, 0⟩]
  file := "outer".toList
  offset := 2
  before := "#ifdef A\n".toList
  endsLine := by decide
  after := "A\n#endif".toList
  later := []

/-- A definition of three lines, one of which is a comment and one of which looks like a directive. -/
def exampleContinued : List (Site × Text) :=
  [(⟨"outer".toList, 4⟩, "#define B x \\".toList), (⟨"outer".toList, 5⟩, "// no part of it".toList),
    (⟨"outer".toList, 6⟩, "#endif".toList)]

/-- The definition of a macro with a parameter is taken out, and the lines that are joined to another
definition do not close the group. -/
theorem preprocess_exampleGap :
    AgreeUpToLines
        (preprocess .empty (exampleGap.fill "#define A(x) x * 2\n".toList)).outcome
        (preprocess .empty (exampleGap.fill [])).outcome ∧
      ∃ value, ((State.ready .empty [⟨true, true, ⟨"outer".toList, 3⟩⟩]).run
          exampleContinued).outcome =
        .ok ([], ⟨Macro.Table.empty.set ['B'] value, [⟨true, true, ⟨"outer".toList, 3⟩⟩], none⟩) := by
  have hread : exampleGap.IsRead .empty := by
    have hrun : ((State.initial .empty).run (numberedLines exampleGap.front)).outcome =
        .ok ([], ⟨Macro.Table.empty.set ['A'] (.number 4),
          [⟨true, true, ⟨"outer".toList, 3⟩⟩], none⟩) := by decide +kernel
    intro kept state h
    cases hrun.symm.trans h
    exact ⟨rfl, rfl⟩
  have hjoins : Joins true ["// no part of it".toList, "#endif".toList] false :=
    .cons (.cons (.nil false))
  obtain ⟨hpassed, hjoined⟩ := preprocess_passedOver .empty
  refine ⟨hpassed exampleGap _ "#define A(x) x * 2".toList "A(x) x * 2".toList hread
    (.inl (by decide)) (by decide) (by decide) (by decide), ?_⟩
  rcases hjoined [⟨true, true, ⟨"outer".toList, 3⟩⟩] "#define B x \\".toList "B x".toList
    ⟨['B'], ['x']⟩ _ false exampleContinued rfl (by decide) (by decide) hjoins rfl with
    ⟨cause, hfault⟩ | hvalue
  · have hnone : faultOf? ((State.ready .empty [⟨true, true, ⟨"outer".toList, 3⟩⟩]).run
        exampleContinued).outcome = none := by decide
    rw [hfault] at hnone
    cases hnone
  · exact hvalue

/-- The lines that are joined to a definition without a proper name cannot be taken out with it. -/
theorem not_forall_agree_fill :
    ¬ ∀ (table : Macro.Table) (gap : Gap) (block raw text : Text) (joined : List Text),
      gap.IsRead table → gap.Holds block → lines block = raw :: joined →
      directiveOf raw = .define text → Definition.ofText? text = none →
      Joins (isContinued raw.trim) joined false →
      AgreeUpToLines (preprocess table (gap.fill block)).outcome
        (preprocess table (gap.fill [])).outcome := by
  intro h
  -- The line behind the definition is kept.
  let gap : Gap := ⟨[], "f".toList, 0, [], .inl rfl, [], []⟩
  have hread : gap.IsRead .empty := by
    intro kept state hrun
    cases hrun
    exact ⟨rfl, rfl⟩
  have hjoins : Joins true ["foo".toList] false := .cons (.nil false)
  have hagree := h .empty gap "#define F(x) \\\nfoo\n".toList "#define F(x) \\".toList
    "F(x)".toList ["foo".toList] hread (.inr rfl) (by decide) (by decide) (by decide) hjoins
  have hkept : (preprocess .empty (gap.fill "#define F(x) \\\nfoo\n".toList)).outcome =
      .ok ⟨"foo\n".toList, .empty⟩ := by decide
  have hnone : (preprocess .empty (gap.fill [])).outcome = .ok ⟨[], .empty⟩ := by decide
  rw [hkept, hnone] at hagree
  rcases hagree with ⟨result, hfirst, hsecond⟩ | ⟨fault, other, hfirst, -⟩
  · exact absurd (hfirst.trans hsecond.symm) (by decide)
  · cases hfirst

end ShaderInterface.Preprocessing
