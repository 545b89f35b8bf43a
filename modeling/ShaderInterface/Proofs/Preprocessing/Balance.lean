import Mathlib.Algebra.BigOperators.Group.List.Basic
import Mathlib.Algebra.Order.Ring.Int
import Mathlib.Data.List.Induction
import Mathlib.Tactic.Common
import ShaderInterface.Preprocessing.Source
import ShaderInterface.Proofs.Outcome
import ShaderInterface.Proofs.Preprocessing.Document

/-!
# Balance of Conditional Groups

Whether the groups in a list of lines are balanced is a matter of counting: a line that opens a group
goes one level down and `#endif` one level up, and no directive of a group may stand on level zero.
The same is found with a stack that holds the lines on which the open groups started. Nothing here
depends on conditions.

## Main definitions

* `depth`: how many more groups are opened than closed.
* `FirstUnmatched`, `InnermostOpen`: where a list of lines breaks.
* `Verdict`: whether a list of lines is balanced, and where it breaks otherwise.
* `openSites`: the lines on which the open groups started, found with a stack.

## Main results

* `verdict_balanceFault?`: the stack finds whether the groups are balanced, and where they break.
-/

namespace ShaderInterface.Preprocessing

open ShaderInterface.Text

/-! ## Levels -/

/-- How a directive changes the level. -/
def depthChange : Directive → Int
  | .ifTrue _ | .ifDefined _ | .ifUndefined _ => 1
  | .endIf => -1
  | _ => 0

/-- The word of a directive that stands inside a group or closes it. -/
def innerWord? : Directive → Option Text
  | .elseIf _ => some "elif".toList
  | .otherwise => some "else".toList
  | .endIf => some "endif".toList
  | _ => none

/-- How many more groups are opened than closed. -/
def depth (lines : List (Site × Text)) : Int :=
  (lines.map fun line => depthChange (directiveOf line.2)).sum

/-- No directive of a group stands on level zero. -/
def Matched (lines : List (Site × Text)) : Prop :=
  ∀ before line, before ++ [line] <+: lines →
    (innerWord? (directiveOf line.2)).isSome = true → depth before ≠ 0

/-- The first directive of a group on level zero has the given word and stands on the given line. -/
def FirstUnmatched (lines : List (Site × Text)) (word : Text) (site : Site) : Prop :=
  ∃ before raw after, lines = before ++ (site, raw) :: after ∧ Matched before ∧
    innerWord? (directiveOf raw) = some word ∧ depth before = 0

/-- All groups that are opened are closed, and no other. -/
def Closed (lines : List (Site × Text)) : Prop :=
  (∀ before, before <+: lines → 0 ≤ depth before) ∧ depth lines = 0

/-- The innermost group that is still open started on the given line: the groups opened behind it
are closed, and it is not. -/
def InnermostOpen (lines : List (Site × Text)) (site : Site) : Prop :=
  ∃ before raw after, lines = before ++ (site, raw) :: after ∧
    opensGroup (directiveOf raw) = true ∧ Closed after

/-- Whether the groups of a list of lines are balanced: there is no fault then, and otherwise the
fault tells where they break. -/
inductive Verdict (lines : List (Site × Text)) : Option Fault → Prop
  | unmatched {word : Text} {site : Site} : FirstUnmatched lines word site →
      Verdict lines (some (.unmatchedDirective word site))
  | unterminated {site : Site} : Matched lines → 0 < depth lines → InnermostOpen lines site →
      Verdict lines (some (.unterminatedConditional site))
  | balanced : Matched lines → depth lines = 0 → Verdict lines none

variable {lines first second : List (Site × Text)} {line : Site × Text}

@[simp]
theorem depth_nil : depth [] = 0 := rfl

@[simp]
theorem depth_singleton (line : Site × Text) : depth [line] = depthChange (directiveOf line.2) := by
  simp [depth]

@[simp]
theorem depth_append (first second : List (Site × Text)) :
    depth (first ++ second) = depth first + depth second := by
  simp [depth]

theorem matched_nil : Matched [] := by
  intro before line h
  exact absurd (List.prefix_nil.1 h) (List.append_ne_nil_of_right_ne_nil _ (List.cons_ne_nil _ _))

theorem matched_concat : Matched (lines ++ [line]) ↔ Matched lines ∧
    ((innerWord? (directiveOf line.2)).isSome = true → depth lines ≠ 0) := by
  constructor
  · intro h
    exact ⟨fun before other hstart => h before other (hstart.trans (List.prefix_append _ _)),
      h lines line (List.prefix_refl _)⟩
  · rintro ⟨hlines, hline⟩ before other hstart
    rcases List.prefix_concat_iff.1 hstart with heq | hstart
    · obtain ⟨rfl, hlast⟩ := List.append_inj' heq rfl
      cases hlast
      exact hline
    · exact hlines before other hstart

theorem closed_nil : Closed [] := by
  refine ⟨fun before h => ?_, rfl⟩
  rw [List.prefix_nil.1 h]
  exact le_refl 0

/-- A line that keeps the level changes nothing. -/
theorem Closed.concat (h : Closed lines) (hline : depthChange (directiveOf line.2) = 0) :
    Closed (lines ++ [line]) := by
  have hdepth : depth (lines ++ [line]) = 0 := by
    rw [depth_append, h.2, depth_singleton, hline, zero_add]
  refine ⟨fun before hbefore => ?_, hdepth⟩
  rcases List.prefix_concat_iff.1 hbefore with rfl | hbefore
  · exact hdepth.ge
  · exact h.1 before hbefore

/-- Closed groups may follow each other. -/
theorem Closed.append (hfirst : Closed first) (hsecond : Closed second) :
    Closed (first ++ second) := by
  refine ⟨fun before hbefore => ?_, by rw [depth_append, hfirst.2, hsecond.2, zero_add]⟩
  obtain ⟨after, heq⟩ := hbefore
  rcases List.append_eq_append_iff.1 heq with ⟨rest, rfl, -⟩ | ⟨rest, rfl, hrest⟩
  · exact hfirst.1 before (List.prefix_append _ _)
  · rw [depth_append, hfirst.2, zero_add]
    exact hsecond.1 rest ⟨after, hrest.symm⟩

/-- A group is closed when its inside is. -/
theorem Closed.group {opener closer : Site × Text} (h : Closed lines)
    (hopener : depthChange (directiveOf opener.2) = 1)
    (hcloser : depthChange (directiveOf closer.2) = -1) :
    Closed (opener :: lines ++ [closer]) := by
  have hdepth (inside : List (Site × Text)) : depth (opener :: inside) = 1 + depth inside := by
    rw [← List.singleton_append, depth_append, depth_singleton, hopener]
  have hgroup : depth (opener :: lines ++ [closer]) = 0 := by
    rw [depth_append, hdepth, depth_singleton, hcloser, h.2]
    rfl
  refine ⟨fun before hbefore => ?_, hgroup⟩
  rcases List.prefix_concat_iff.1 hbefore with rfl | hbefore
  · exact hgroup.ge
  rcases List.prefix_cons_iff.1 hbefore with rfl | ⟨inside, rfl, hinside⟩
  · exact depth_nil.ge
  · have := h.1 inside hinside
    rw [hdepth]
    omega

/-! ## Open groups -/

/-- The lines on which the open groups started, the innermost one first, behind one more line. -/
def openSitesBehind (sites : List Site) (line : Site × Text) : Except Fault (List Site) :=
  if opensGroup (directiveOf line.2) then .ok (line.1 :: sites)
  else
    match innerWord? (directiveOf line.2), sites with
    | some word, [] => .error (.unmatchedDirective word line.1)
    | _, _ => .ok (if directiveOf line.2 = .endIf then sites.tail else sites)

/-- The lines on which the open groups started, the innermost one first. -/
def openSites (lines : List (Site × Text)) : Except Fault (List Site) :=
  lines.foldlM openSitesBehind []

variable {sites : List Site} {site : Site} {raw : Text}

/-- A directive opens a group, closes one or keeps the level. -/
theorem directive_cases (directive : Directive) :
    opensGroup directive = true ∨ directive = .endIf ∨ depthChange directive = 0 := by
  cases directive with
  | ifTrue | ifDefined | ifUndefined => exact .inl rfl
  | endIf => exact .inr (.inl rfl)
  | define | undefine | elseIf | otherwise | other => exact .inr (.inr rfl)

theorem depthChange_of_opensGroup {directive : Directive} (h : opensGroup directive = true) :
    depthChange directive = 1 := by
  cases directive <;> first | rfl | cases h

theorem openSitesBehind_open (h : opensGroup (directiveOf raw) = true) :
    openSitesBehind sites (site, raw) = .ok (site :: sites) :=
  if_pos h

/-- Only groups that are open can be divided and closed. -/
theorem openSitesBehind_unmatched {word : Text} (h : innerWord? (directiveOf raw) = some word) :
    openSitesBehind [] (site, raw) = .error (.unmatchedDirective word site) := by
  have hopens : ¬ opensGroup (directiveOf raw) = true := by
    intro hopens
    cases hdirective : directiveOf raw <;> simp [hdirective, innerWord?, opensGroup] at h hopens
  rw [openSitesBehind, if_neg hopens]
  simp only [h]

theorem openSitesBehind_endIf {opener : Site} (h : directiveOf raw = .endIf) :
    openSitesBehind (opener :: sites) (site, raw) = .ok sites := by
  simp [openSitesBehind, h, opensGroup, innerWord?]

/-- Other lines, and those that divide a group that is open, leave the open groups as they are. -/
theorem openSitesBehind_keep (h : depthChange (directiveOf raw) = 0)
    (hinside : innerWord? (directiveOf raw) = none ∨ sites ≠ []) :
    openSitesBehind sites (site, raw) = .ok sites := by
  have hopens : ¬ opensGroup (directiveOf raw) = true := by
    intro hopens
    cases h.symm.trans (depthChange_of_opensGroup hopens)
  have hclose : directiveOf raw ≠ .endIf := by
    intro hclose
    rw [hclose] at h
    cases h
  rw [openSitesBehind, if_neg hopens, if_neg hclose]
  intro word hword hnil
  rcases hinside with hnone | hne
  · cases hnone.symm.trans hword
  · exact hne hnil

theorem openSites_concat (lines : List (Site × Text)) (line : Site × Text) :
    openSites (lines ++ [line]) = openSites lines >>= (openSitesBehind · line) := by
  rw [openSites, List.foldlM_append, ← openSites]
  cases openSites lines <;> simp

/-! ## What the stack finds -/

/-- A list of lines leaves groups open that started on the given lines: before, between and behind
these lines, all groups are closed. -/
def Leaves : List Site → List (Site × Text) → Prop
  | [], lines => Closed lines
  | site :: outer, lines => ∃ before raw after, lines = before ++ (site, raw) :: after ∧
      opensGroup (directiveOf raw) = true ∧ Leaves outer before ∧ Closed after

/-- The level is the number of open groups. -/
theorem Leaves.depth_eq (h : Leaves sites lines) : depth lines = sites.length := by
  induction sites generalizing lines with
  | nil => exact h.2
  | cons site outer ih =>
    obtain ⟨before, raw, after, rfl, hopens, hbefore, hafter⟩ := h
    rw [depth_append, ← List.singleton_append, depth_append, depth_singleton,
      depthChange_of_opensGroup hopens, hafter.2, ih hbefore, List.length_cons]
    omega

/-- Closed groups leave nothing open. -/
theorem Leaves.append (h : Leaves sites first) (hsecond : Closed second) :
    Leaves sites (first ++ second) := by
  cases sites with
  | nil => exact Closed.append h hsecond
  | cons site outer =>
    obtain ⟨before, raw, after, rfl, hopens, hbefore, hafter⟩ := h
    exact ⟨before, raw, after ++ second, by simp, hopens, hbefore, hafter.append hsecond⟩

/-- The stack keeps the groups that are left open. -/
theorem Leaves.concat {next : List Site} (h : Leaves sites lines)
    (hnext : openSitesBehind sites (site, raw) = .ok next) :
    Leaves next (lines ++ [(site, raw)]) := by
  rcases directive_cases (directiveOf raw) with hopens | hclose | hkeep
  · cases (openSitesBehind_open hopens).symm.trans hnext
    exact ⟨lines, raw, [], rfl, hopens, h, closed_nil⟩
  · rcases sites with - | ⟨opener, outer⟩
    · have hword : innerWord? (directiveOf raw) = some "endif".toList := by rw [hclose]; rfl
      cases (openSitesBehind_unmatched hword).symm.trans hnext
    · -- The innermost group is closed now, and so belongs to what stands behind the one around.
      cases (openSitesBehind_endIf hclose).symm.trans hnext
      obtain ⟨before, openerRaw, after, rfl, hopens, hbefore, hafter⟩ := h
      rw [List.append_assoc]
      exact hbefore.append (hafter.group (depthChange_of_opensGroup hopens) (by rw [hclose]; rfl))
  · have hkept : next = sites := by
      by_cases hinside : innerWord? (directiveOf raw) = none ∨ sites ≠ []
      · cases (openSitesBehind_keep hkeep hinside).symm.trans hnext
        rfl
      · rw [not_or, not_not] at hinside
        obtain ⟨word, hword⟩ := Option.ne_none_iff_exists'.1 hinside.1
        rw [hinside.2] at hnext
        cases (openSitesBehind_unmatched hword).symm.trans hnext
    rw [hkept]
    exact h.append (closed_nil.concat hkeep)

/-- The stack stops where a directive of a group stands outside of any. -/
theorem exists_of_openSitesBehind {fault : Fault}
    (h : openSitesBehind sites (site, raw) = .error fault) : ∃ word,
      fault = .unmatchedDirective word site ∧ innerWord? (directiveOf raw) = some word ∧
        sites = [] := by
  unfold openSitesBehind at h
  split at h
  · cases h
  · split at h
    next word hword =>
      cases h
      exact ⟨word, rfl, hword, rfl⟩
    next => cases h

/-- What the stack finds is true of the lines: either they leave open the groups that it holds, or it
stops at the first directive of a group on level zero. -/
theorem openSites_spec (lines : List (Site × Text)) :
    (∀ sites, openSites lines = .ok sites → Matched lines ∧ Leaves sites lines) ∧
    ∀ fault, openSites lines = .error fault → ∃ word site,
      fault = .unmatchedDirective word site ∧ FirstUnmatched lines word site := by
  induction lines using List.reverseRecOn with
  | nil =>
    refine ⟨fun sites h => ?_, fun fault h => ?_⟩
    · cases h
      exact ⟨matched_nil, closed_nil⟩
    · cases h
  | append_singleton lines line ih =>
    obtain ⟨site, raw⟩ := line
    rw [openSites_concat]
    refine ⟨fun next h => ?_, fun fault h => ?_⟩
    · obtain ⟨sites, hsites, hnext⟩ := result_of_bind h
      obtain ⟨hmatched, hleaves⟩ := ih.1 sites hsites
      refine ⟨matched_concat.2 ⟨hmatched, fun hinner hdepth => ?_⟩, hleaves.concat hnext⟩
      -- On level zero the stack is empty, and would have stopped.
      obtain ⟨word, hword⟩ := Option.isSome_iff_exists.1 hinner
      rw [hleaves.depth_eq, Int.natCast_eq_zero, List.length_eq_zero_iff] at hdepth
      rw [hdepth] at hnext
      cases (openSitesBehind_unmatched hword).symm.trans hnext
    · rcases fault_of_bind h with hlines | ⟨sites, hsites, hline⟩
      · obtain ⟨word, place, rfl, before, text, after, rfl, hfirst⟩ := ih.2 fault hlines
        exact ⟨word, place, rfl, before, text, after ++ [(site, raw)], by simp, hfirst⟩
      · obtain ⟨hmatched, hleaves⟩ := ih.1 sites hsites
        obtain ⟨word, rfl, hword, rfl⟩ := exists_of_openSitesBehind hline
        exact ⟨word, site, rfl, lines, raw, [], rfl, hmatched, hword, hleaves.depth_eq⟩

/-- The fault that the stack finds. -/
def balanceFault? (lines : List (Site × Text)) : Option Fault :=
  match openSites lines with
  | .error fault => some fault
  | .ok [] => none
  | .ok (site :: _) => some (.unterminatedConditional site)

/-- The stack finds whether the groups are balanced, and where they break. -/
theorem verdict_balanceFault? (lines : List (Site × Text)) :
    Verdict lines (balanceFault? lines) := by
  obtain ⟨hok, herror⟩ := openSites_spec lines
  rw [balanceFault?]
  cases hsites : openSites lines with
  | error fault =>
    obtain ⟨word, site, rfl, hfirst⟩ := herror fault hsites
    exact .unmatched hfirst
  | ok sites =>
    obtain ⟨hmatched, hleaves⟩ := hok sites hsites
    rcases sites with - | ⟨site, outer⟩
    · exact .balanced hmatched hleaves.depth_eq
    · have hdepth : 0 < depth lines := by
        rw [hleaves.depth_eq, List.length_cons]
        omega
      obtain ⟨before, raw, after, hlines, hopens, -, hafter⟩ := hleaves
      exact .unterminated hmatched hdepth ⟨before, raw, after, hlines, hopens, hafter⟩

end ShaderInterface.Preprocessing
