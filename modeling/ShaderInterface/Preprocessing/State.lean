import ShaderInterface.Preprocessing.Condition
import ShaderInterface.Preprocessing.Definition
import ShaderInterface.Preprocessing.Directive
import ShaderInterface.Report

/-!
# Line by Line

The preprocessor reads a shader line by line. Its state holds the macro table, the conditional
groups that are open, the innermost one first, and the macro whose definition is continued on the
next line. A line is kept, dropped or obeyed; outside of the branches that are taken only the
directives that open, divide and close groups are obeyed.

A comment line is dropped wherever it stands. A line that continues a definition is added to the
value of its macro, whatever it looks like.
-/

namespace ShaderInterface.Preprocessing

open ShaderInterface.Text

/-- A conditional group that is open. -/
structure Group where
  /-- Whether lines of the present branch are read. -/
  enabled : Bool
  /-- Whether a branch has been taken so far. -/
  taken : Bool
  /-- The line that opened the group. -/
  opener : Site
  deriving DecidableEq, Repr

/-- Whether lines inside some open groups are read. -/
def enabled : List Group → Bool
  | [] => true
  | group :: _ => group.enabled

/-- What the preprocessor knows between two lines. -/
structure State where
  /-- The macros defined so far. -/
  table : Macro.Table
  /-- The groups that are open, the innermost one first. -/
  groups : List Group
  /-- The macro whose definition goes on in the next line. -/
  continued : Option Text
  deriving DecidableEq

namespace State

/-- The state before the first line. -/
def initial (table : Macro.Table) : State := ⟨table, [], none⟩

/-- Opens a group whose first branch is taken or not. -/
def openGroup (state : State) (site : Site) (taken : Bool) : State :=
  { state with groups := ⟨taken, taken, site⟩ :: state.groups }

/-- Whether the condition of a line holds. It is evaluated only where the answer matters. -/
def conditionHolds (state : State) (matters : Bool) (condition line : Text) : Report Bool :=
  if matters then (Condition.ofText condition).holds state.table line else return false

/-- The innermost group, and those around it. A directive that stands outside any group is refused. -/
def innermost (state : State) (directive : Text) (site : Site) : Report (Group × List Group) :=
  match state.groups with
  | [] => do
    Report.notice (.failure (.unmatchedDirective directive site))
    Report.raise (.unmatchedDirective directive site)
  | group :: outer => return (group, outer)

/-- Goes on to the next branch of the innermost group. The branch can be taken when the group itself
is read and no branch before was taken; then `decide` tells whether it is. -/
def nextBranch (state : State) (directive : Text) (site : Site)
    (decide : (eligible : Bool) → Report Bool) : Report State := do
  let (group, outer) ← state.innermost directive site
  let taken ← decide (enabled outer && !group.taken)
  let group := { group with enabled := taken, taken := group.taken || taken }
  return { state with groups := group :: outer }

/-- Closes the innermost group. -/
def closeGroup (state : State) (site : Site) : Report State := do
  let (_, outer) ← state.innermost "endif".toList site
  return { state with groups := outer }

/-- Obeys a directive that opens, divides or closes a group. Other directives are not for groups. -/
def obeyGroupDirective? (state : State) (site : Site) (line : Text) :
    Directive → Option (Report State)
  | .ifTrue condition => some do
    let taken ← state.conditionHolds (enabled state.groups) condition line
    return state.openGroup site taken
  | .ifDefined name =>
    some (return state.openGroup site (enabled state.groups && state.table.contains name))
  | .ifUndefined name =>
    some (return state.openGroup site (enabled state.groups && !state.table.contains name))
  | .elseIf condition => some (state.nextBranch "elif".toList site fun eligible =>
      state.conditionHolds eligible condition line)
  | .otherwise => some (state.nextBranch "else".toList site pure)
  | .endIf => some (state.closeGroup site)
  | _ => none

/-- Obeys a definition. One without a proper name is skipped. -/
def define (state : State) (definition line : Text) : Report State :=
  match Definition.ofText? definition with
  | none => do
    Report.notice (.malformedDefinition line)
    return state
  | some definition =>
    match definition.evaluate state.table with
    | .error cause => do
      Report.notice (.failure (.invalidEquation line cause))
      Report.raise (.invalidEquation line cause)
    | .ok value =>
      let continued := if isContinued line then some definition.name else none
      return { state with table := state.table.set definition.name value, continued }

/-- Adds a line to the value of a macro. -/
def continueDefinition (state : State) (name line : Text) : State :=
  let written := match state.table.replacement? name with
    | some before => before ++ '\n' :: directiveText line
    | none => directiveText line
  { state with
    table := state.table.set name (.text written)
    continued := if isContinued line then some name else none }

/-- Reads a line; it is returned if it is kept. -/
def step (state : State) (site : Site) (raw : Text) : Report (Option Text × State) :=
  let line := raw.trim
  if isCommentLine line then return (none, state)
  else
    -- A line that continues a definition is no directive, whatever it starts with.
    match state.continued with
    | some name => return (none, state.continueDefinition name line)
    | none =>
      let directive := (Directive.ofLine? line).getD .other
      match state.obeyGroupDirective? site line directive with
      | some report => do return (none, ← report)
      | none =>
        if !enabled state.groups then return (none, state)
        else
          match directive with
          | .define definition => do return (none, ← state.define definition line)
          | .undefine name => return (none, { state with table := state.table.erase name })
          | _ => return (if line.isEmpty then none else some raw, state)

/-- Reads lines; those that are kept are returned in order. -/
def run (state : State) : List (Site × Text) → Report (List Text × State)
  | [] => return ([], state)
  | (site, raw) :: rest => do
    let (kept, next) ← state.step site raw
    let (following, last) ← next.run rest
    return (kept.toList ++ following, last)

end State

end ShaderInterface.Preprocessing
