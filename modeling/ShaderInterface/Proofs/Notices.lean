import Mathlib.Tactic.Common
import ShaderInterface.Proofs.Inclusion.Supplier
import ShaderInterface.Shader

/-!
# Faults Are Noticed Once

Everything that can fail reports its notices in such a way that they tell the outcome: where there is a
fault, the notices end with it and with no other error, and where there is a result they hold no error
at all.

A report that ends with a fault does not give notice of it by itself. The law holds because notice is
given wherever a fault arises, and nowhere else: it is shown for each function that can fail, up to those
that read shaders. Sequences and lists of reports keep it, as a fault ends them.

Only the notice of an unknown stage is an error without a fault. It comes first of all.

## Main definitions

* `errors`: the notices that are errors.
* `Tell`: notices tell an outcome.
* `Report.Faithful`: the notices of a report tell its outcome.

## Main results

* `Report.not_faithful_raise`: a fault that is not noticed breaks the law.
* `Report.Faithful.refuse`, `Report.Faithful.bind`: noticed faults keep it, and so do sequences.
* `notices_tell`: the law for everything that reports.
-/

namespace ShaderInterface

open ShaderInterface.Text

/-! ## The law -/

/-- The notices that are errors. -/
def errors (notices : List Notice) : List Notice :=
  notices.filter fun notice => notice.level = .error

/-- Notices tell an outcome: there is a fault if and only if there is exactly one error among them, a
fault is the last thing noticed, and with a result there is no error. -/
structure Tell {α : Type} (notices : List Notice) (outcome : Except Fault α) : Prop where
  error_iff : (∃ fault, outcome = .error fault) ↔ (errors notices).length = 1
  last : ∀ fault, outcome = .error fault → notices.getLast? = some (.failure fault)
  none : ∀ result, outcome = .ok result → errors notices = []

variable {α β : Type} {notices before : List Notice} {fault : Fault}

theorem errors_fault (fault : Fault) : errors [.failure fault] = [.failure fault] := rfl

theorem errors_append (first second : List Notice) :
    errors (first ++ second) = errors first ++ errors second :=
  List.filter_append first second

/-- Without an error there is a result. -/
theorem tell_ok (h : errors notices = []) (result : α) :
    Tell notices (.ok result : Except Fault α) where
  error_iff := by simp [h]
  last _ hfault := by cases hfault
  none _ _ := h

/-- A fault that is noticed behind warnings is told. -/
theorem tell_error (h : errors before = []) (fault : Fault) :
    Tell (before ++ [.failure fault]) (.error fault : Except Fault α) where
  error_iff := by simp [errors_append, h, errors_fault]
  last _ hfault := by
    cases hfault
    exact List.getLast?_concat
  none _ hresult := by cases hresult

/-- A fault that is told is noticed behind warnings. -/
theorem Tell.exists_of_error (h : Tell notices (.error fault : Except Fault α)) :
    ∃ before, errors before = [] ∧ notices = before ++ [.failure fault] := by
  obtain ⟨before, rfl⟩ := List.getLast?_eq_some_iff.1 (h.last fault rfl)
  have hcount := h.error_iff.1 ⟨fault, rfl⟩
  refine ⟨before, ?_, rfl⟩
  rw [errors_append, List.length_append] at hcount
  exact List.eq_nil_of_length_eq_zero (Nat.succ.inj hcount)

namespace Report

/-- The notices of a report tell its outcome. -/
def Faithful (report : Report α) : Prop :=
  Tell report.notices report.outcome

/-- A fault that is not noticed is not told. -/
theorem not_faithful_raise (fault : Fault) : ¬ (raise fault : Report α).Faithful := by
  intro h
  cases h.last fault rfl

namespace Faithful

theorem pure (result : α) : (pure result : Report α).Faithful :=
  tell_ok rfl result

/-- A warning changes nothing. -/
theorem notice {warning : Notice} (h : warning.level = .warning) :
    (Report.notice warning).Faithful := by
  have hnone : errors [warning] = [] := by simp [errors, h]
  exact tell_ok hnone ()

/-- A fault that is noticed where it arises is told. -/
theorem refuse (fault : Fault) :
    (do Report.notice (.failure fault); raise fault : Report α).Faithful :=
  @tell_error α [] rfl fault

/-- A fault may stand in the place of any result. -/
theorem of_error {report : Report α} (h : report.Faithful)
    (hfault : report.outcome = .error fault) :
    (⟨report.notices, .error fault⟩ : Report β).Faithful := by
  rw [Faithful, hfault] at h
  obtain ⟨before, hbefore, hnotices⟩ := Tell.exists_of_error h
  rw [hnotices]
  exact tell_error hbefore fault

/-- A sequence is faithful if its parts are. -/
theorem bind {report : Report α} {next : α → Report β} (h : report.Faithful)
    (hnext : ∀ result, report.outcome = .ok result → (next result).Faithful) :
    (report >>= next).Faithful := by
  obtain ⟨notices, outcome⟩ := report
  cases outcome with
  | error fault =>
    -- Nothing comes behind a fault.
    obtain ⟨before, hbefore, hnotices⟩ := Tell.exists_of_error h
    cases hnotices
    exact tell_error hbefore fault
  | ok result =>
    have hbefore : errors notices = [] := h.none result rfl
    have hrest : Tell (next result).notices (next result).outcome := hnext result rfl
    show Tell (notices ++ (next result).notices) (next result).outcome
    cases houtcome : (next result).outcome with
    | error fault =>
      rw [houtcome] at hrest
      obtain ⟨warnings, hwarnings, hnotices⟩ := hrest.exists_of_error
      rw [hnotices, ← List.append_assoc]
      exact tell_error (by rw [errors_append, hbefore, hwarnings, List.nil_append]) fault
    | ok last =>
      refine tell_ok ?_ last
      rw [errors_append, hbefore, hrest.none last houtcome, List.nil_append]

theorem map (f : α → β) {report : Report α} (h : report.Faithful) : (f <$> report).Faithful :=
  bind h fun _ _ => pure _

theorem ite {condition : Prop} [Decidable condition] {first second : Report α}
    (hfirst : first.Faithful) (hsecond : second.Faithful) :
    (if condition then first else second).Faithful := by
  split
  · exact hfirst
  · exact hsecond

/-- A warning that is given under a condition changes nothing. -/
theorem warn {condition : Prop} [Decidable condition] {warning : Notice} {next : Unit → Report β}
    (h : warning.level = .warning) (hnext : (next ()).Faithful) :
    (if condition then Report.notice warning >>= next else next ()).Faithful :=
  ite (bind (notice h) fun _ _ => hnext) hnext

/-- The reports on a list end with the first fault. -/
theorem mapM {f : α → Report β} (h : ∀ item, (f item).Faithful) (items : List α) :
    (items.mapM f).Faithful := by
  induction items with
  | nil => exact pure []
  | cons item rest ih =>
    rw [List.mapM_cons]
    exact bind (h item) fun _ _ => bind ih fun _ _ => pure _

theorem foldlM {f : β → α → Report β} (h : ∀ found item, (f found item).Faithful) (start : β)
    (items : List α) : (items.foldlM f start).Faithful := by
  induction items generalizing start with
  | nil => exact pure start
  | cons item rest ih =>
    rw [List.foldlM_cons]
    exact bind (h start item) fun _ _ => ih _

end Faithful

end Report

open Report

/-! ## Assembling -/

namespace Supplier

variable {World : Type} (supplier : Supplier World) (chain : List Text) (site : Site) (world : World)

theorem faithful_openFile (path : Text) :
    (supplier.openFile chain site path world).1.Faithful := by
  rw [openFile]
  split
  · exact .refuse _
  · split
    · exact .refuse _
    · exact .pure _

variable {supplier chain site world}

theorem faithful_follow {request : Text} {opened : Report (Text × Text)} {last : World}
    (h : supplier.follow chain site request world = (opened, last)) : opened.Faithful := by
  rw [follow] at h
  split at h
  · cases h
    exact .refuse _
  · cases h
    exact .bind (supplier.faithful_openFile _ _ _ _) fun _ _ => .pure _

/-- A walk gives notice of the fault that ends it. -/
theorem Walk.faithful {chain : List Text} {file : Text} {parts : List Inclusion.Segment}
    {world last : World} {report : Report (List Fragment)}
    (h : supplier.Walk chain file parts world report last) : report.Faithful := by
  induction h with
  | nil => exact .pure _
  | code _ ih => exact .bind ih fun _ _ => .pure _
  | refused hfollow hopened => exact (faithful_follow hfollow).of_error hopened
  | failed hfollow _ _ _ ih => exact .bind (faithful_follow hfollow) fun _ _ => ih
  | opened hfollow _ _ _ _ ihinside ih =>
    exact .bind (faithful_follow hfollow) fun _ _ => .bind ihinside fun _ _ =>
      .bind ih fun _ _ => .pure _

theorem faithful_assemble {depth : Nat} {path : Text} {world last : World}
    {report : Report (List Fragment)}
    (h : supplier.assemble depth path world = some (report, last)) : report.Faithful := by
  have hfaithful := supplier.faithful_openFile [] ⟨[], 0⟩ world path
  rcases assemble_cases h with
    ⟨opened, fault, hopen, hopened, rfl⟩ | ⟨opened, next, text, included, hopen, -, hwalk, rfl⟩
  · rw [hopen] at hfaithful
    exact hfaithful.of_error hopened
  · rw [hopen] at hfaithful
    exact .bind hfaithful fun _ _ => hwalk.faithful

end Supplier

/-! ## Conditions -/

section

variable (table : Macro.Table) (line : Text)

theorem Term.faithful_value (text : Text) : (value table line text).Faithful := by
  unfold value
  split
  · exact .pure _
  · exact .refuse _

theorem Term.faithful_holds (term : Term) : (term.holds table line).Faithful := by
  cases term with
  | defined negated name => exact .pure _
  | comparison left kind right =>
    exact .bind (faithful_value table line left) fun _ _ =>
      .bind (faithful_value table line right) fun _ _ => .pure _
  | arithmetic text => exact .bind (faithful_value table line text) fun _ _ => .pure _

theorem Condition.faithful_holds (condition : Condition) : (condition.holds table line).Faithful :=
  .bind (.mapM (fun terms => .mapM (Term.faithful_holds table line) terms) condition) fun _ _ =>
    .pure _

end

/-! ## Preprocessing -/

namespace Preprocessing

namespace State

variable (state : State) (site : Site) (line : Text)

theorem faithful_conditionHolds (matters : Bool) (condition : Text) :
    (state.conditionHolds matters condition line).Faithful :=
  .ite (Condition.faithful_holds state.table line _) (.pure _)

theorem faithful_innermost (directive : Text) : (state.innermost directive site).Faithful := by
  unfold innermost
  split
  · exact .refuse _
  · exact .pure _

theorem faithful_nextBranch (directive : Text) {decide : Bool → Report Bool}
    (h : ∀ eligible, (decide eligible).Faithful) :
    (state.nextBranch directive site decide).Faithful :=
  .bind (state.faithful_innermost site directive) fun _ _ => .bind (h _) fun _ _ => .pure _

theorem faithful_closeGroup : (state.closeGroup site).Faithful :=
  .bind (state.faithful_innermost site _) fun _ _ => .pure _

theorem faithful_obeyGroupDirective? (directive : Directive) :
    ∀ report ∈ state.obeyGroupDirective? site line directive, report.Faithful := by
  intro report h
  cases directive with
  | ifTrue condition =>
    obtain rfl := Option.some_inj.1 h
    exact .bind (state.faithful_conditionHolds line _ _) fun _ _ => .pure _
  | ifDefined name | ifUndefined name =>
    obtain rfl := Option.some_inj.1 h
    exact .pure _
  | elseIf condition =>
    obtain rfl := Option.some_inj.1 h
    exact state.faithful_nextBranch site _ fun _ => state.faithful_conditionHolds line _ _
  | otherwise =>
    obtain rfl := Option.some_inj.1 h
    exact state.faithful_nextBranch site _ fun _ => .pure _
  | endIf =>
    obtain rfl := Option.some_inj.1 h
    exact state.faithful_closeGroup site
  | define | undefine | other => cases h

/-- A definition is skipped with a warning, or refused with the notice of its fault. -/
theorem faithful_define (definition : Text) : (state.define definition line).Faithful := by
  unfold define
  split
  · exact .bind (.notice rfl) fun _ _ => .pure _
  · split
    · exact .refuse _
    · exact .pure _

/-- Every step gives notice of its fault. -/
theorem faithful_step (raw : Text) : (state.step site raw).Faithful := by
  simp only [step]
  split
  · exact .pure _
  · split
    · exact .pure _
    · split
      next report hreport =>
        exact .bind (state.faithful_obeyGroupDirective? site _ _ report hreport) fun _ _ => .pure _
      next =>
        split
        · exact .pure _
        · split
          · exact .bind (state.faithful_define _ _) fun _ _ => .pure _
          · exact .pure _
          · exact .pure _

/-- A run takes one step after the other, up to the first fault. -/
theorem faithful_run (located : List (Site × Text)) : (state.run located).Faithful := by
  induction located generalizing state with
  | nil => exact .pure _
  | cons line rest ih =>
    exact .bind (state.faithful_step _ _) fun _ _ => .bind (ih _) fun _ _ => .pure _

end State

theorem faithful_requireClosed (groups : List Group) : (requireClosed groups).Faithful := by
  unfold requireClosed
  split
  · exact .pure _
  · exact .refuse _

theorem faithful_preprocess (table : Macro.Table) (fragments : List Fragment) :
    (preprocess table fragments).Faithful :=
  .bind (State.faithful_run _ _) fun _ _ => .bind (faithful_requireClosed _) fun _ _ => .pure _

end Preprocessing

/-! ## Reflection -/

namespace Interface

variable (table : Macro.Table)

theorem faithful_layoutValue (range : Number.IntRange) (text : Text) :
    (layoutValue table range text).Faithful := by
  unfold layoutValue
  split
  · exact .pure _
  · exact .refuse _

/-- An array size is refused for its value, or because its bracket is not closed. -/
theorem faithful_foldDims (declaration text : Text) :
    (foldDims table declaration text).Faithful := by
  fun_induction foldDims table declaration text with
  | case1 => exact .pure _
  | case2 => exact .refuse _
  | case3 text before opened hopen size rest hclose _ hempty ih =>
    -- There is nothing to compute between empty brackets.
    exact .bind (.pure _) fun _ _ => .bind ih fun _ _ => .pure _
  | case4 text before opened hopen size rest hclose _ hsize ih =>
    exact .bind (.map _ (faithful_layoutValue table _ _)) fun _ _ => .bind ih fun _ _ => .pure _

theorem faithful_declaredMembers (declaration : Text) :
    (declaredMembers table declaration).Faithful := by
  unfold declaredMembers
  split
  · exact .refuse _
  · split
    · refine .bind (faithful_foldDims table _ _) fun _ _ => .bind (.mapM (fun declarator => ?_) _)
        fun _ _ => .pure _
      -- A name behind a comma may be missing, too.
      exact .ite (.refuse _) (.map _ (faithful_foldDims table _ _))
    · exact .refuse _

theorem faithful_blockMembers (block : Text) : (blockMembers table block).Faithful :=
  .bind (.mapM (faithful_declaredMembers table) _) fun _ _ => .pure _

theorem Slot.faithful_assign (slot : Slot) (pair : Text × Text) :
    (slot.assign table pair).Faithful := by
  have hvalue := faithful_layoutValue table .signed32 pair.2
  exact .ite (.map _ hvalue) (.ite (.map _ hvalue) (.ite (.map _ hvalue) (.ite (.map _ hvalue)
    (.pure _))))

namespace Variable

variable (declared : Variable)

theorem faithful_elementCount : (declared.elementCount table).Faithful := by
  unfold elementCount
  split
  · exact .pure _
  · exact .pure _
  · exact .bind (faithful_layoutValue table _ _) fun _ _ => .warn rfl (.pure _)

theorem faithful_expand (slot : Slot) : (declared.expand slot).Faithful :=
  .ite (.ite (.pure _) (.refuse _)) (.pure _)

theorem faithful_slots : (declared.slots table).Faithful :=
  .bind (declared.faithful_elementCount table) fun _ _ =>
    .bind (.foldlM (Slot.faithful_assign table) _ _) fun _ _ =>
      .bind (faithful_blockMembers table _) fun _ _ => declared.faithful_expand _

end Variable

/-- The slots of declarations come with the notices of all of them up to a fault. -/
theorem faithful_slotsOf (declared : List Declaration) : (slotsOf table declared).Faithful := by
  fun_induction slotsOf table declared with
  | case1 => exact .pure _
  | case2 attributes storage rest ih => exact ih
  | case3 declared rest ih =>
    exact .bind (declared.faithful_slots table) fun _ _ => .bind ih fun _ _ => .pure _

namespace WorkGroup

theorem faithful_assign (group : WorkGroup) (pair : Text × Text) :
    (group.assign table pair).Faithful := by
  have hvalue := Faithful.map Int.toNat (faithful_layoutValue table .unsigned32 pair.2)
  exact .ite (.map _ hvalue) (.ite (.map _ hvalue) (.ite (.map _ hvalue) (.pure _)))

theorem faithful_ofDeclarations? (declared : List Declaration) :
    (ofDeclarations? table declared).Faithful := by
  induction declared with
  | nil => exact .pure _
  | cons declaration rest ih =>
    cases declaration with
    | interface found => exact ih
    | stageWide attributes storage =>
      cases storage with
      -- Only the input as a whole states the work group.
      | input => exact .ite (.map _ (.foldlM (faithful_assign table) _ _)) ih
      | output | uniform | buffer | storageBuffer => exact ih

end WorkGroup

theorem faithful_reflectWorkGroup (source : Text) : (reflectWorkGroup table source).Faithful :=
  WorkGroup.faithful_ofDeclarations? table _

theorem faithful_reflectCompute (source : Text) : (reflectCompute table source).Faithful :=
  .bind (faithful_reflectWorkGroup table source) fun _ _ =>
    .warn rfl (.bind (faithful_slotsOf table _) fun _ _ => .pure _)

end Interface

/-! ## Shaders -/

namespace Shader

theorem faithful_reflect (stage : Option Stage) (preprocessed : Preprocessing.Source) :
    (reflect stage preprocessed).Faithful := by
  unfold reflect
  split
  · exact Interface.faithful_reflectCompute _ _
  · exact .bind (Interface.faithful_slotsOf _ _) fun _ _ => .pure _

theorem faithful_ofFragments (stage : Option Stage) (path commandLine : Text)
    {assembled : Report (List Fragment)} (h : assembled.Faithful) :
    (ofFragments stage path commandLine assembled).Faithful :=
  .bind h fun _ _ => .bind (Preprocessing.faithful_preprocess _ _) fun _ _ =>
    .bind (faithful_reflect _ _) fun _ _ => .pure _

/-- What is noticed about a shader that has been assembled tells the outcome. An unknown stage is
noticed before. -/
theorem tell_ofAssembled {path : Text} (commandLine : Text) {assembled : Report (List Fragment)}
    (h : assembled.Faithful) :
    (Stage.ofPath? path ≠ none → (ofAssembled path commandLine assembled).Faithful) ∧
      (Stage.ofPath? path = none → ∃ behind,
        (ofAssembled path commandLine assembled).notices = .unknownStage path :: behind ∧
          Tell behind (ofAssembled path commandLine assembled).outcome) := by
  constructor
  · intro hstage
    obtain ⟨stage, hstage⟩ := Option.ne_none_iff_exists'.1 hstage
    simp only [ofAssembled, hstage]
    exact faithful_ofFragments (some stage) path commandLine h
  · intro hstage
    simp only [ofAssembled, hstage]
    exact ⟨_, rfl, faithful_ofFragments none path commandLine h⟩

/-- What is noticed about a shader that is read from a supplier tells the outcome. An unknown stage is
noticed before. -/
theorem tell_readFrom {World : Type} {supplier : Supplier World} {depth : Nat}
    {path commandLine : Text} {world last : World} {report : Report Shader}
    (h : readFrom supplier depth path commandLine world = some (report, last)) :
    (Stage.ofPath? path ≠ none → report.Faithful) ∧
      (Stage.ofPath? path = none → ∃ behind, report.notices = .unknownStage path :: behind ∧
        Tell behind report.outcome) := by
  obtain ⟨⟨assembled, world'⟩, hassemble, hread⟩ := Option.bind_eq_some_iff.1 h
  obtain ⟨rfl, -⟩ := Prod.mk.inj (Option.some_inj.1 hread)
  exact tell_ofAssembled commandLine (Supplier.faithful_assemble hassemble)

end Shader

/-- The law of notices, for every supplier that gives no notices of its own, whatever it remembers and
however often it is asked. A fault is noticed exactly once and last of all, and where there is none no
error is noticed. Reading a shader keeps this law, too, apart from one more error, which comes first: it
tells that the stage of the shader is unknown. This holds for all suppliers, and for all providers. -/
theorem notices_tell :
    (∀ (World : Type) (supplier : Supplier World) depth path world report last,
      supplier.assemble depth path world = some (report, last) → report.Faithful) ∧
    (∀ table fragments, (Preprocessing.preprocess table fragments).Faithful) ∧
    (∀ table source, (Interface.reflect table source).Faithful ∧
      (Interface.reflectWorkGroup table source).Faithful ∧
      (Interface.reflectCompute table source).Faithful) ∧
    (∀ (World : Type) (supplier : Supplier World) depth path commandLine world report last,
      Shader.readFrom supplier depth path commandLine world = some (report, last) →
        (Stage.ofPath? path ≠ none → report.Faithful) ∧
        (Stage.ofPath? path = none → ∃ behind, report.notices = .unknownStage path :: behind ∧
          Tell behind report.outcome)) ∧
    ∀ provider path commandLine,
      (Stage.ofPath? path ≠ none → (Shader.read provider path commandLine).Faithful) ∧
      (Stage.ofPath? path = none → ∃ behind,
        (Shader.read provider path commandLine).notices = .unknownStage path :: behind ∧
          Tell behind (Shader.read provider path commandLine).outcome) := by
  refine ⟨fun _ _ _ _ _ _ _ => Supplier.faithful_assemble, Preprocessing.faithful_preprocess,
    fun table source => ⟨Interface.faithful_slotsOf table _,
      Interface.faithful_reflectWorkGroup table source,
      Interface.faithful_reflectCompute table source⟩,
    fun _ _ _ _ _ _ _ _ => Shader.tell_readFrom, fun provider path commandLine => ?_⟩
  -- The files of a provider are read as they are by the supplier that answers as it does.
  obtain ⟨bound, hbound⟩ := provider.supplier_readFrom path commandLine
  exact Shader.tell_readFrom (hbound bound (Nat.le_refl bound))

/-- A supplier that reads one file, which includes another one, and no more. -/
def exampleLost : Supplier Nat where
  resolve count _ request := (.ok request, count)
  read count _ :=
    (if count = 0 then .ok "#include <part>".toList else .error "gone".toList, count + 1)

/-- The unknown stage of a shader is noticed first, and the missing part last. -/
theorem tell_exampleLost :
    let fault := Fault.unreadableFile "part".toList "gone".toList
    let report : Report Shader :=
      ⟨[.unknownStage "main".toList, .failure fault], .error fault⟩
    Shader.readFrom exampleLost 1 "main".toList [] 0 = some (report, 2) ∧
      ∃ behind, report.notices = .unknownStage "main".toList :: behind ∧
        Tell behind report.outcome := by
  intro fault report
  have hread : Shader.readFrom exampleLost 1 "main".toList [] 0 = some (report, 2) := by rfl
  exact ⟨hread, (notices_tell.2.2.2.1 _ _ _ _ _ _ _ _ hread).2 (by decide)⟩

end ShaderInterface
