import ShaderInterface.Fault

/-!
# Notices and Reports

Reading a shader produces notices on the way: warnings, which change nothing, and errors. A report
is an outcome with the notices that led to it, in order. Notices and faults are apart: what fails
gives notice of its fault first, and then ends with the fault, which passes through everything
around it and is not noticed there again.
-/

namespace ShaderInterface

open ShaderInterface.Text

/-- Something to tell the user about a shader. -/
inductive Notice where
  /-- A fault has arisen. -/
  | failure (fault : Fault)
  /-- The stage of a shader cannot be told from its path. -/
  | unknownStage (path : Text)
  /-- A definition without a proper name is skipped. -/
  | malformedDefinition (line : Text)
  /-- An array is declared with less than one element. -/
  | emptyArray (size name : Text)
  /-- A compute shader declares no work group size. -/
  | missingWorkGroup
  /-- The size of a member type is not known. -/
  | unknownMemberType (type : Text)
  /-- The size of a member exceeds every size. -/
  | memberSizeOverflow (name : Text)
  /-- The kind of descriptor that a slot needs is not known. -/
  | unknownDescriptor (name type : Text)
  deriving DecidableEq

namespace Notice

/-- How serious a notice is. -/
inductive Level where
  | warning
  | error
  deriving DecidableEq, Repr

/-- Faults and unknown stages are errors, all else is a warning. -/
def level : Notice → Level
  | failure _ | unknownStage _ => .error
  | _ => .warning

/-- The notice of a fault. -/
def ofFault : Fault → Text
  | .unresolvedInclude request cause =>
    "failed to resolve include ".toList ++ request ++ ": ".toList ++ cause
  | .unreadableFile path cause =>
    "failed to load include file ".toList ++ path ++ ": ".toList ++ cause
  | .recursiveInclude path site => path ++ " is recursively included from ".toList ++ site.text
  | .unmatchedDirective directive site =>
    "#".toList ++ directive ++ " without a matching #if in ".toList ++ site.text
  | .unterminatedConditional opener => "unterminated conditional in ".toList ++ opener.text
  | .invalidCondition line cause =>
    "error processing condition ".toList ++ quoted line ++ ": ".toList ++ cause.message
  | .invalidEquation line cause =>
    "error processing equation ".toList ++ quoted line ++ ": ".toList ++ cause.message
  | .invalidLayoutValue value cause =>
    "invalid value for layout ".toList ++ quoted value ++ ": ".toList ++ cause.message
  | .malformedMember declaration => "malformed block member ".toList ++ quoted declaration
  | .unterminatedArraySize declaration =>
    "unterminated array size in ".toList ++ quoted declaration
  | .locationsOutOfRange count first name _ =>
    ofNat count ++ " locations starting at ".toList ++ ofInt first ++ " do not fit ".toList ++ name

/-- The text of a notice. -/
def message : Notice → Text
  | failure fault => ofFault fault
  | unknownStage path => "invalid shader file extension: ".toList ++ path
  | malformedDefinition line => "ignoring malformed define ".toList ++ quoted line
  | emptyArray size name =>
    "array size ".toList ++ quoted size ++ " of ".toList ++ name ++ " is below one".toList
  | missingWorkGroup => "compute shader does not declare local_size_x/y/z".toList
  | unknownMemberType type =>
    "shader layout field of type ".toList ++ quoted type ++ " not found".toList
  | memberSizeOverflow name =>
    "size of shader layout field ".toList ++ name ++ " overflows".toList
  | unknownDescriptor name type =>
    "unknown descriptor type for ".toList ++ name ++ " (".toList ++ type ++ ")".toList

end Notice

/-- An outcome and the notices that led to it, the first one first. -/
structure Report (α : Type) where
  /-- The notices, in order. -/
  notices : List Notice
  /-- The result, or the fault that stands in its place. -/
  outcome : Except Fault α

namespace Report

variable {α β : Type}

/-- A result without any notice. -/
def done (result : α) : Report α := ⟨[], .ok result⟩

/-- Goes on with the result of a report, if it has one. -/
def andThen (report : Report α) (next : α → Report β) : Report β :=
  match report.outcome with
  | .error fault => ⟨report.notices, .error fault⟩
  | .ok result =>
    let rest := next result
    ⟨report.notices ++ rest.notices, rest.outcome⟩

instance : Monad Report where
  pure := done
  bind := andThen

/-- Gives a notice and goes on. -/
def notice (notice : Notice) : Report Unit := ⟨[notice], .ok ()⟩

/-- Ends with a fault, in silence. -/
def raise (fault : Fault) : Report α := ⟨[], .error fault⟩

end Report

end ShaderInterface
