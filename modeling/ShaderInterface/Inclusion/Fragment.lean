import ShaderInterface.Inclusion.Request
import ShaderInterface.Text.Line

/-!
# Fragments and Segments

A file is cut at its include lines. The lines between two of them stay together as a fragment, which
knows the file and the place in it that they come from.
-/

namespace ShaderInterface

open ShaderInterface.Text

/-- Consecutive lines of a file. -/
structure Fragment where
  /-- The lines, each with its line feed. -/
  source : Text
  /-- The path of the file. -/
  file : Text
  /-- How many lines of the file stand before the first one. -/
  offset : Nat
  deriving DecidableEq, Repr

/-- The lines of a fragment with their numbers in the file. -/
def Fragment.numberedLines (fragment : Fragment) : List (Nat × Text) :=
  (lines fragment.source).mapIdx fun i line => (fragment.offset + 1 + i, line)

namespace Inclusion

/-- A part of a file: either lines without an include line among them, or one include line. -/
inductive Segment where
  /-- Lines behind the first `offset` lines of the file. -/
  | code (offset : Nat) (lines : List Text)
  /-- The line with the given number asks for a path. -/
  | request (number : Nat) (path : Text)
  deriving DecidableEq, Repr

/-- Cuts the lines that follow the first `offset` lines of a file at the include lines. -/
def segmentLines (offset : Nat) : List Text → List Segment
  | [] => []
  | line :: rest =>
    match request? line, segmentLines (offset + 1) rest with
    | some path, segments => .request (offset + 1) path :: segments
    | none, .code _ lines :: segments => .code offset (line :: lines) :: segments
    | none, segments => .code offset [line] :: segments

/-- Cuts a file at its include lines. -/
def segments (text : Text) : List Segment :=
  segmentLines 0 (lines text)

end Inclusion

end ShaderInterface
