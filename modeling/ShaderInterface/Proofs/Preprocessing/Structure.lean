import ShaderInterface.Preprocessing.Source
import ShaderInterface.Proofs.Preprocessing.Condition
import ShaderInterface.Proofs.Preprocessing.Step

/-!
# Structure of Conditional Groups

The line machine reads the lines of a document as the tree says. It keeps no tree: what it knows of
its place in one is the stack of open groups. Inside a branch that is not read, the lines of a whole
document leave the machine as it was; in a group that can take no more branches, so do the lines up
to the end of the group.

## Main results

* `Document.run_skipped`: a document changes nothing where lines are not read.
* `Branches.run_settled`: the rest of a group changes nothing when it can take no more branches.
* `Document.run_read`: where lines are read the machine does what the tree says.
* `preprocess_document`: preprocessing does what the tree says, however the lines are spread over
  fragments.
-/

namespace ShaderInterface.Preprocessing

open ShaderInterface.Text

/-- The state in which no definition is continued. -/
def State.ready (table : Macro.Table) (groups : List Group) : State := ⟨table, groups, none⟩

variable {table : Macro.Table} {groups outer : List Group} {group : Group}
  {located : List (Site × Text)}

/-! ## Documents that are skipped -/

/-- A comment line gives no directive. -/
theorem directiveOf_comment {raw : Text} (h : isCommentLine raw.trim = true) :
    directiveOf raw = .other := by
  by_contra hdirective
  simp [isCommentLine_eq_false hdirective] at h

/-- A line that continues a definition gives no directive. -/
theorem directiveOf_continuation {raw : Text} (h : IsContinuation raw) :
    directiveOf raw = .other := by
  simp [directiveOf, Directive.ofLine?, h.1]

/-- Lines without directives for groups change nothing where lines are not read. -/
theorem run_skippedLines (henabled : enabled groups = false)
    (h : ∀ line ∈ located.map Prod.snd, State.concernsGroups (directiveOf line) = false) :
    ((State.ready table groups).run located).outcome = .ok ([], State.ready table groups) := by
  induction located with
  | nil => rfl
  | cons entry rest ih =>
    obtain ⟨site, raw⟩ := entry
    rw [List.map_cons, List.forall_mem_cons] at h
    rw [State.run_cons_of_step rest (State.step_skipped rfl henabled h.1)]
    exact ih h.2

/-- A single line without a directive for groups changes nothing where lines are not read. -/
theorem run_skippedLine {raw : Text} (henabled : enabled groups = false)
    (h : State.concernsGroups (directiveOf raw) = false) (hlines : located.map Prod.snd = [raw]) :
    ((State.ready table groups).run located).outcome = .ok ([], State.ready table groups) := by
  apply run_skippedLines henabled
  intro line hline
  rw [hlines, List.mem_singleton] at hline
  rwa [hline]

mutual

/-- An item changes nothing where lines are not read. -/
theorem Item.run_skipped {table : Macro.Table} {groups : List Group}
    {located : List (Site × Text)} (henabled : enabled groups = false) :
    (item : Item) → item.WellFormed → located.map Prod.snd = item.lines →
      ((State.ready table groups).run located).outcome = .ok ([], State.ready table groups)
  | .plain raw, h, hlines => by
    apply run_skippedLine henabled _ hlines
    rw [h.2]
    rfl
  | .comment raw, h, hlines => by
    apply run_skippedLine henabled _ hlines
    rw [directiveOf_comment h]
    rfl
  | .undefine raw, ⟨name, hname⟩, hlines => by
    apply run_skippedLine henabled _ hlines
    rw [hname]
    rfl
  | .define raw continuation, ⟨definition, hdefinition, _, _, hcontinuation⟩, hlines => by
    -- The definition is not obeyed, so that the lines behind it are read on their own.
    apply run_skippedLines henabled
    intro line hline
    rw [hlines, Item.lines, List.mem_cons] at hline
    rcases hline with rfl | hline
    · rw [hdefinition]
      rfl
    · rw [directiveOf_continuation (hcontinuation line hline)]
      rfl
  | .group opener body rest, ⟨hopens, hbody, hrest⟩, hlines => by
    obtain ⟨⟨site, _⟩, _, rfl, rfl, hbelow⟩ := List.map_eq_cons_iff.1 hlines
    obtain ⟨inside, behind, rfl, hinside, hbehind⟩ := List.map_eq_append_iff.1 hbelow
    have hstep : ((State.ready table groups).step site _).outcome = _ :=
      State.step_open rfl hopens
    rw [if_neg (by simpa [State.ready] using henabled)] at hstep
    rw [State.run_cons_of_step _ hstep]
    -- The group is pushed with its first branch off, and nothing around it is read.
    refine Eq.trans (State.run_append_of_run _ (Document.run_skipped rfl body hbody hinside)) ?_
    exact Branches.run_settled (by simp [State.ready, henabled]) rest hrest hbehind

/-- A document changes nothing where lines are not read. -/
theorem Document.run_skipped {table : Macro.Table} {groups : List Group}
    {located : List (Site × Text)} (henabled : enabled groups = false) :
    (doc : Document) → doc.WellFormed → located.map Prod.snd = doc.lines →
      ((State.ready table groups).run located).outcome = .ok ([], State.ready table groups)
  | .nil, _, hlines => by
    rw [Document.lines, List.map_eq_nil_iff] at hlines
    rw [hlines]
    rfl
  | .cons item rest, ⟨hitem, hrest⟩, hlines => by
    obtain ⟨first, second, rfl, hfirst, hsecond⟩ := List.map_eq_append_iff.1 hlines
    rw [State.run_append_of_run _ (Item.run_skipped henabled item hitem hfirst)]
    exact Document.run_skipped henabled rest hrest hsecond

/-- The rest of a group closes the group and does nothing else, when no branch can be taken. -/
theorem Branches.run_settled {table : Macro.Table} {outer : List Group} {group : Group}
    {located : List (Site × Text)} (hsettled : (enabled outer && !group.taken) = false) :
    (branches : Branches) → branches.WellFormed → located.map Prod.snd = branches.lines →
      ((State.ready table (group :: outer)).run located).outcome =
        .ok ([], State.ready table outer)
  | .endIf raw, h, hlines => by
    obtain ⟨⟨site, _⟩, rfl, rfl⟩ := List.map_eq_singleton_iff.1 hlines
    exact State.run_cons_of_step [] (State.step_endIf rfl rfl h)
  | .otherwise raw body closer, ⟨hraw, hbody, hcloser⟩, hlines => by
    obtain ⟨⟨site, _⟩, _, rfl, rfl, hbelow⟩ := List.map_eq_cons_iff.1 hlines
    obtain ⟨inside, behind, rfl, hinside, hbehind⟩ := List.map_eq_append_iff.1 hbelow
    obtain ⟨⟨last, _⟩, rfl, rfl⟩ := List.map_eq_singleton_iff.1 hbehind
    have hstep : ((State.ready table (group :: outer)).step site _).outcome = _ :=
      State.step_otherwise rfl rfl hraw
    rw [hsettled] at hstep
    rw [State.run_cons_of_step _ hstep]
    refine Eq.trans (State.run_append_of_run _ (Document.run_skipped rfl body hbody hinside)) ?_
    exact State.run_cons_of_step [] (State.step_endIf rfl rfl hcloser)
  | .elseIf raw body rest, ⟨⟨condition, hraw⟩, hbody, hrest⟩, hlines => by
    obtain ⟨⟨site, _⟩, _, rfl, rfl, hbelow⟩ := List.map_eq_cons_iff.1 hlines
    obtain ⟨inside, behind, rfl, hinside, hbehind⟩ := List.map_eq_append_iff.1 hbelow
    have hstep : ((State.ready table (group :: outer)).step site _).outcome = _ :=
      State.step_elseIf rfl rfl hraw
    rw [hsettled] at hstep
    rw [State.run_cons_of_step _ hstep]
    refine Eq.trans (State.run_append_of_run _ (Document.run_skipped rfl body hbody hinside)) ?_
    -- The branch was not taken, and the group is as settled as before.
    exact Branches.run_settled (by simpa using hsettled) rest hrest hbehind

end

/-! ## Definitions with the lines that continue them -/

/-- A line that continues a definition changes the value of its macro as in the tree. -/
theorem continueDefinition_set (name raw : Text) (value : Macro.Value) (continued : Option Text) :
    (State.mk (table.set name value) groups continued).continueDefinition name raw.trim =
      ⟨table.set name (continueValue value raw), groups,
        if isContinued raw.trim then some name else none⟩ := by
  simp only [State.continueDefinition, Macro.Table.replacement?_set_self, Macro.Table.set_set,
    continueValue]
  cases value.replacement? <;> rfl

/-- The lines behind a definition end up in the value of its macro, in order. -/
theorem run_continuation {name : Text} (continuation : List Text) {raw : Text}
    {value : Macro.Value} (hjoined : Joined (raw :: continuation))
    (h : ∀ line ∈ continuation, IsContinuation line)
    (hlines : located.map Prod.snd = continuation) :
    ((State.mk (table.set name value) groups
        (if isContinued raw.trim then some name else none)).run located).outcome =
      .ok ([], .ready (table.set name (continuation.foldl continueValue value)) groups) := by
  -- The value grows with each line; what is continued is told by the line before.
  induction continuation generalizing raw value located with
  | nil =>
    rw [List.map_eq_nil_iff] at hlines
    rw [Joined] at hjoined
    rw [hlines, hjoined]
    rfl
  | cons line rest ih =>
    obtain ⟨⟨site, _⟩, behind, rfl, rfl, hbehind⟩ := List.map_eq_cons_iff.1 hlines
    obtain ⟨hraw, hrest⟩ := hjoined
    rw [List.forall_mem_cons] at h
    rw [hraw, State.run_cons_of_step _ (State.step_continuation h.1.2 rfl),
      continueDefinition_set]
    exact ih hrest h.2 hbehind

/-- A definition with the lines that continue it changes the table as in the tree. -/
theorem run_define (henabled : enabled groups = true) {raw : Text} {continuation : List Text}
    (h : (Item.define raw continuation).WellFormed)
    (hlines : located.map Prod.snd = raw :: continuation) :
    ((State.ready table groups).run located).outcome =
      (defineLines table raw continuation).map fun next => ([], .ready next groups) := by
  obtain ⟨⟨site, _⟩, behind, rfl, rfl, hbehind⟩ := List.map_eq_cons_iff.1 hlines
  obtain ⟨text, hdirective, hname, hjoined, hcontinuation⟩ := h
  have hstep : ((State.ready table groups).step site _).outcome = _ :=
    State.step_define rfl henabled hdirective
  rw [defineLines, hdirective]
  cases hdefinition : Definition.ofText? text with
  | none =>
    -- A definition without a name has no lines behind it.
    have hnil : continuation = [] := by
      by_contra hne
      simpa [hdefinition] using hname hne
    rw [hnil, List.map_eq_nil_iff] at hbehind
    rw [hdefinition] at hstep
    simp only [hdefinition, hbehind]
    exact State.run_cons_of_step [] hstep
  | some definition =>
    rw [hdefinition] at hstep
    change _ = Except.map _ ((definition.evaluate table).mapError _) at hstep
    cases hvalue : definition.evaluate table with
    | error fault =>
      rw [hvalue] at hstep
      simp only [hdefinition, hvalue, State.run_cons, hstep]
      rfl
    | ok value =>
      -- The lines behind are added to the value that the first line has given.
      rw [hvalue] at hstep
      simp only [hdefinition, hvalue, State.run_cons_of_step _ hstep]
      exact run_continuation continuation hjoined hcontinuation hbehind

/-! ## Documents that are read -/

/-- Lines that only change the groups add nothing to what the lines before them give. -/
theorem run_append_of_groups {first second : List (Site × Text)}
    {result : Except Fault (List Text × Macro.Table)}
    (hfirst : ((State.ready table groups).run first).outcome =
      result.map fun (kept, next) => (kept, .ready next groups))
    (hsecond : ∀ next : Macro.Table, ((State.ready next groups).run second).outcome =
      .ok ([], .ready next outer)) :
    ((State.ready table groups).run (first ++ second)).outcome =
      result.map fun (kept, next) => (kept, .ready next outer) := by
  rw [State.run_append, hfirst]
  cases result with
  | error fault => rfl
  | ok result =>
    obtain ⟨kept, next⟩ := result
    show ((State.ready next groups).run second).outcome >>= _ = _
    -- The second lines keep nothing, and leave the table as the first ones have left it.
    rw [hsecond]
    exact congrArg (fun lines => Except.ok (lines, State.ready next outer)) (List.append_nil kept)

/-- Behind the line that decides a branch, either the branch is read and the rest of the group is
settled, or the branch is skipped and the group goes on. -/
theorem run_branch {holds : Bool} {body : Document} {rest : Branches}
    {inside behind : List (Site × Text)} (hgroup : group.enabled = holds ∧ group.taken = holds)
    (hbody : body.WellFormed) (hinside : inside.map Prod.snd = body.lines)
    (hrest : rest.WellFormed) (hbehind : behind.map Prod.snd = rest.lines)
    (hread : holds = true → ((State.ready table (group :: outer)).run inside).outcome =
      (body.interpret table).map fun (kept, next) => (kept, .ready next (group :: outer)))
    (hgoOn : holds = false → ((State.ready table (group :: outer)).run behind).outcome =
      (rest.interpret table).map fun (kept, next) => (kept, .ready next outer)) :
    ((State.ready table (group :: outer)).run (inside ++ behind)).outcome =
      (if holds then body.interpret table else rest.interpret table).map
        fun (kept, next) => (kept, .ready next outer) := by
  cases holds with
  | true =>
    refine run_append_of_groups (hread rfl) ?_
    intro next
    exact Branches.run_settled (by simp [hgroup.2]) rest hrest hbehind
  | false =>
    -- Later branches are still possible, and what they keep is all that is kept.
    have hskip : enabled (group :: outer) = false := hgroup.1
    rw [State.run_append_of_run _ (Document.run_skipped hskip body hbody hinside)]
    exact hgoOn rfl

mutual

/-- Where lines are read, an item keeps lines and changes the table as in the tree. -/
theorem Item.run_read {table : Macro.Table} {groups : List Group} {located : List (Site × Text)}
    (henabled : enabled groups = true) :
    (item : Item) → item.WellFormed → located.map Prod.snd = item.lines →
      ((State.ready table groups).run located).outcome =
        (item.interpret table).map fun (kept, next) => (kept, .ready next groups)
  | .plain raw, ⟨hcomment, hraw⟩, hlines => by
    obtain ⟨⟨site, raw⟩, rfl, rfl⟩ := List.map_eq_singleton_iff.1 hlines
    rw [State.run_cons, State.step_plain rfl henabled hcomment hraw, Item.interpret]
    cases raw.trim.isEmpty <;> rfl
  | .comment raw, h, hlines => by
    obtain ⟨⟨site, raw⟩, rfl, rfl⟩ := List.map_eq_singleton_iff.1 hlines
    exact State.run_cons_of_step [] (State.step_comment h)
  | .undefine raw, ⟨name, hname⟩, hlines => by
    obtain ⟨⟨site, raw⟩, rfl, rfl⟩ := List.map_eq_singleton_iff.1 hlines
    rw [Item.interpret, hname]
    exact State.run_cons_of_step [] (State.step_undefine rfl henabled hname)
  | .define raw continuation, h, hlines => by
    rw [run_define henabled h hlines, Item.interpret]
    cases defineLines table raw continuation <;> rfl
  | .group opener body rest, ⟨hopens, hbody, hrest⟩, hlines => by
    obtain ⟨⟨site, opener⟩, _, rfl, rfl, hbelow⟩ := List.map_eq_cons_iff.1 hlines
    obtain ⟨inside, behind, rfl, hinside, hbehind⟩ := List.map_eq_append_iff.1 hbelow
    have hstep : ((State.ready table groups).step site opener).outcome = _ :=
      State.step_open rfl hopens
    rw [if_pos (by simpa [State.ready] using henabled)] at hstep
    -- The condition is asked by the machine as in the tree, with the same table.
    change _ = Except.map _ (branchHolds table opener) at hstep
    rw [Item.interpret]
    cases hholds : branchHolds table opener with
    | error fault =>
      rw [hholds] at hstep
      rw [State.run_cons, hstep]
      rfl
    | ok holds =>
      rw [hholds] at hstep
      rw [State.run_cons_of_step _ hstep]
      exact run_branch ⟨rfl, rfl⟩ hbody hinside hrest hbehind
        (fun h => Document.run_read (by exact h) body hbody hinside)
        (fun h => Branches.run_read henabled h rest hrest hbehind)

/-- Where lines are read, a document keeps lines and changes the table as in the tree. -/
theorem Document.run_read {table : Macro.Table} {groups : List Group}
    {located : List (Site × Text)} (henabled : enabled groups = true) :
    (doc : Document) → doc.WellFormed → located.map Prod.snd = doc.lines →
      ((State.ready table groups).run located).outcome =
        (doc.interpret table).map fun (kept, next) => (kept, .ready next groups)
  | .nil, _, hlines => by
    rw [Document.lines, List.map_eq_nil_iff] at hlines
    rw [hlines]
    rfl
  | .cons item rest, ⟨hitem, hrest⟩, hlines => by
    obtain ⟨first, second, rfl, hfirst, hsecond⟩ := List.map_eq_append_iff.1 hlines
    rw [State.run_append, Item.run_read henabled item hitem hfirst, Document.interpret]
    -- The rest is read with the table that the item has left.
    cases item.interpret table with
    | error fault => rfl
    | ok result =>
      obtain ⟨kept, next⟩ := result
      show ((State.ready next groups).run second).outcome >>= _ =
        Except.map _ (rest.interpret next >>= _)
      rw [Document.run_read henabled rest hrest hsecond]
      cases rest.interpret next <;> rfl

/-- A group that has taken no branch keeps lines and changes the table as in the tree. -/
theorem Branches.run_read {table : Macro.Table} {outer : List Group} {group : Group}
    {located : List (Site × Text)} (henabled : enabled outer = true)
    (htaken : group.taken = false) :
    (branches : Branches) → branches.WellFormed → located.map Prod.snd = branches.lines →
      ((State.ready table (group :: outer)).run located).outcome =
        (branches.interpret table).map fun (kept, next) => (kept, .ready next outer)
  | .endIf raw, h, hlines => by
    obtain ⟨⟨site, raw⟩, rfl, rfl⟩ := List.map_eq_singleton_iff.1 hlines
    exact State.run_cons_of_step [] (State.step_endIf rfl rfl h)
  | .otherwise raw body closer, ⟨hraw, hbody, hcloser⟩, hlines => by
    obtain ⟨⟨site, raw⟩, _, rfl, rfl, hbelow⟩ := List.map_eq_cons_iff.1 hlines
    obtain ⟨inside, behind, rfl, hinside, hbehind⟩ := List.map_eq_append_iff.1 hbelow
    obtain ⟨⟨last, closer⟩, rfl, rfl⟩ := List.map_eq_singleton_iff.1 hbehind
    have hstep : ((State.ready table (group :: outer)).step site raw).outcome = _ :=
      State.step_otherwise rfl rfl hraw
    rw [henabled, htaken] at hstep
    rw [State.run_cons_of_step _ hstep]
    -- No branch was taken, so that this one is.
    refine run_append_of_groups (Document.run_read rfl body hbody hinside) ?_
    intro next
    exact State.run_cons_of_step [] (State.step_endIf rfl rfl hcloser)
  | .elseIf raw body rest, ⟨⟨condition, hraw⟩, hbody, hrest⟩, hlines => by
    obtain ⟨⟨site, raw⟩, _, rfl, rfl, hbelow⟩ := List.map_eq_cons_iff.1 hlines
    obtain ⟨inside, behind, rfl, hinside, hbehind⟩ := List.map_eq_append_iff.1 hbelow
    have hstep : ((State.ready table (group :: outer)).step site raw).outcome = _ :=
      State.step_elseIf rfl rfl hraw
    rw [henabled, htaken] at hstep
    change _ = Except.map _ (branchHolds table raw) at hstep
    rw [Branches.interpret]
    cases hholds : branchHolds table raw with
    | error fault =>
      rw [hholds] at hstep
      rw [State.run_cons, hstep]
      rfl
    | ok holds =>
      rw [hholds] at hstep
      rw [State.run_cons_of_step _ hstep]
      exact run_branch ⟨rfl, rfl⟩ hbody hinside hrest hbehind
        (fun h => Document.run_read (by exact h) body hbody hinside)
        (fun h => Branches.run_read henabled h rest hrest hbehind)

end

/-! ## Faults of a document -/

/-- Whether a fault is that of an arithmetic text in a condition or a definition. -/
def IsEvaluationFault : Fault → Prop
  | .invalidCondition .. | .invalidEquation .. => True
  | _ => False

/-- A line that decides a branch fails only by its arithmetic. -/
theorem branchHolds_fault {raw : Text} {fault : Fault} (h : branchHolds table raw = .error fault) :
    IsEvaluationFault fault := by
  -- Both directives with a condition pass on the fault of its arithmetic.
  have hcondition {condition : Condition}
      (h : (condition.holds table raw.trim).outcome = .error fault) : IsEvaluationFault fault := by
    obtain ⟨_, -, _, -, rfl⟩ := Condition.exists_of_holds h
    trivial
  rw [branchHolds] at h
  split at h
  · exact hcondition h
  · exact hcondition h
  all_goals cases h

/-- A definition fails only by its arithmetic. -/
theorem defineLines_fault {raw : Text} {continuation : List Text} {fault : Fault}
    (h : defineLines table raw continuation = .error fault) : IsEvaluationFault fault := by
  rw [defineLines] at h
  split at h
  · split at h
    next definition _ =>
      cases hvalue : definition.evaluate table with
      | error cause =>
        rw [hvalue] at h
        cases h
        trivial
      | ok value =>
        rw [hvalue] at h
        cases h
    next => cases h
  · cases h

mutual

/-- An item fails only by the arithmetic of a condition or a definition. -/
theorem Item.interpret_fault {table : Macro.Table} {fault : Fault} :
    (item : Item) → item.interpret table = .error fault → IsEvaluationFault fault
  | .plain raw, h => by cases h
  | .comment raw, h => by cases h
  | .undefine raw, h => by
    rw [Item.interpret] at h
    split at h <;> cases h
  | .define raw continuation, h => by
    rw [Item.interpret] at h
    rcases fault_of_bind h with hlines | ⟨next, _, hnext⟩
    · exact defineLines_fault hlines
    · cases hnext
  | .group opener body rest, h => by
    rw [Item.interpret] at h
    rcases fault_of_bind h with hholds | ⟨holds, _, hbranch⟩
    · exact branchHolds_fault hholds
    · -- Whichever branch is run, the fault is one of this branch.
      cases holds with
      | true => exact Document.interpret_fault body hbranch
      | false => exact Branches.interpret_fault rest hbranch

/-- A document fails only by the arithmetic of a condition or a definition. -/
theorem Document.interpret_fault {table : Macro.Table} {fault : Fault} :
    (doc : Document) → doc.interpret table = .error fault → IsEvaluationFault fault
  | .nil, h => by cases h
  | .cons item rest, h => by
    rw [Document.interpret] at h
    rcases fault_of_bind h with hitem | ⟨⟨kept, next⟩, _, hbehind⟩
    · exact Item.interpret_fault item hitem
    · rcases fault_of_bind hbehind with hrest | ⟨⟨following, last⟩, _, hlast⟩
      · exact Document.interpret_fault rest hrest
      · cases hlast

/-- A group fails only by the arithmetic of a condition or a definition. -/
theorem Branches.interpret_fault {table : Macro.Table} {fault : Fault} :
    (branches : Branches) → branches.interpret table = .error fault → IsEvaluationFault fault
  | .endIf raw, h => by cases h
  | .otherwise raw body closer, h => Document.interpret_fault body h
  | .elseIf raw body rest, h => by
    rw [Branches.interpret] at h
    rcases fault_of_bind h with hholds | ⟨holds, _, hbranch⟩
    · exact branchHolds_fault hholds
    · cases holds with
      | true => exact Document.interpret_fault body hbranch
      | false => exact Branches.interpret_fault rest hbranch

end

/-! ## Preprocessing a document -/

/-- The located lines of fragments are the lines of their sources. -/
theorem map_snd_numberedLines (fragments : List Fragment) :
    (numberedLines fragments).map Prod.snd =
      fragments.flatMap fun fragment => lines fragment.source := by
  rw [numberedLines, List.map_flatMap]
  refine congrArg (fragments.flatMap ·) (funext fun fragment => ?_)
  rw [Fragment.numberedLines, List.map_map]
  apply List.ext_getElem <;> simp

/-- Preprocessing the lines of a document, however they are spread over fragments, does what the
tree says: it keeps the same lines and ends with the same table, in which the names are then
replaced, or it ends with the same fault, which is that of the first arithmetic text without a
value. -/
theorem preprocess_document (doc : Document) (hdoc : doc.WellFormed) (table : Macro.Table)
    (fragments : List Fragment)
    (hlines : (fragments.flatMap fun fragment => lines fragment.source) = doc.lines) :
    ((State.initial table).run (numberedLines fragments)).outcome =
        (doc.interpret table).map (fun (kept, last) => (kept, State.initial last)) ∧
      (preprocess table fragments).outcome =
        (doc.interpret table).map (fun (kept, last) =>
          { text := replaceWords last (unlines kept), table := last }) ∧
      ∀ fault, doc.interpret table = .error fault → IsEvaluationFault fault := by
  -- The sites of the lines play no part in what is kept.
  have hrun : ((State.initial table).run (numberedLines fragments)).outcome =
      (doc.interpret table).map (fun (kept, last) => (kept, State.initial last)) :=
    Document.run_read rfl doc hdoc ((map_snd_numberedLines fragments).trans hlines)
  refine ⟨hrun, ?_, fun fault => Document.interpret_fault doc⟩
  simp only [preprocess, Report.outcome_bind, hrun]
  cases doc.interpret table <;> rfl

/-- Two definitions, one of them of two lines, and a group with three branches, the last of which holds
a group in turn. -/
def nestedExample : Document :=
  .cons (.define "#define C".toList [])
    (.cons (.define "#define A x \\".toList ["  y".toList])
      (.cons
        (.group "#ifdef B".toList (.cons (.plain "b".toList) .nil)
          (.elseIf "#elif !defined(A)".toList (.cons (.undefine "#undef C".toList) .nil)
            (.otherwise "#else".toList
              (.cons (.group "  #ifdef A".toList
                (.cons (.plain "a A".toList) (.cons (.undefine "  #undef A".toList) .nil))
                (.endIf "  #endif".toList)) .nil)
              "#endif".toList)))
        (.cons (.comment "// end".toList) .nil)))

/-- The condition of the second branch holds only where the macro is missing. -/
theorem branchHolds_notDefined (table : Macro.Table) :
    branchHolds table "#elif !defined(A)".toList = .ok (!table.contains ['A']) := by
  have hdirective : directiveOf "#elif !defined(A)".toList = .elseIf "!defined(A)".toList := rfl
  have hcondition : Condition.ofText "!defined(A)".toList = [[.defined true ['A']]] := by
    decide +kernel
  rw [branchHolds, hdirective]
  show ((Condition.ofText "!defined(A)".toList).holds table _).outcome = _
  rw [hcondition]
  simp [Condition.holds, Term.holds]

/-- The lines of the example, in two fragments, the second of which starts inside the group. -/
def nestedFragments : List Fragment :=
  [⟨"#define C\n#define A x \\\n  y\n#ifdef B\nb\n".toList, "inner".toList, 0⟩,
    ⟨"#elif !defined(A)\n#undef C\n#else\n  #ifdef A\na A\n  #undef A\n  #endif\n#endif\n// end\n".toList,
      "outer".toList, 7⟩]

/-- The innermost line is kept, and the macro is removed behind it. The other one stays, as the branch
that would remove it is not taken. -/
theorem run_nestedExample :
    nestedExample.WellFormed ∧
      (nestedFragments.flatMap fun fragment => lines fragment.source) = nestedExample.lines ∧
      ((State.initial .empty).run (numberedLines nestedFragments)).outcome =
        .ok (["a A".toList], State.initial (Macro.Table.empty.set ['C'] .flag)) := by
  have hlines : (nestedFragments.flatMap fun fragment => lines fragment.source) =
      nestedExample.lines := by decide
  have hdoc : nestedExample.WellFormed := by
    refine ⟨⟨_, rfl, fun h => absurd rfl h, rfl, List.forall_mem_nil _⟩,
      ⟨_, rfl, fun _ => rfl, ⟨rfl, rfl⟩, fun line hline => ?_⟩,
      ⟨rfl, ⟨⟨rfl, rfl⟩, trivial⟩, ⟨_, rfl⟩, ⟨⟨_, rfl⟩, trivial⟩, rfl,
        ⟨⟨rfl, ⟨⟨rfl, rfl⟩, ⟨_, rfl⟩, trivial⟩, rfl⟩, trivial⟩, rfl⟩, rfl, trivial⟩
    obtain rfl := List.mem_singleton.1 hline
    exact ⟨by decide, rfl⟩
  have hinterpret : nestedExample.interpret .empty =
      .ok (["a A".toList], Macro.Table.empty.set ['C'] .flag) := by
    simp only [nestedExample, Document.interpret, Item.interpret, Branches.interpret,
      branchHolds_notDefined]
    rfl
  refine ⟨hdoc, hlines, ?_⟩
  rw [(preprocess_document nestedExample hdoc .empty nestedFragments hlines).1, hinterpret]
  rfl

end ShaderInterface.Preprocessing
