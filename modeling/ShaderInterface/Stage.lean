import ShaderInterface.Inclusion.Path

/-!
# Stages

A shader runs at a stage of the graphics pipeline, or is a compute shader. The extension of its path
tells which.
-/

namespace ShaderInterface

/-- A stage of the pipeline. -/
inductive Stage where
  | vertex
  | fragment
  | geometry
  | tessellationControl
  | tessellationEvaluation
  | compute
  deriving DecidableEq, Repr

namespace Stage

/-- The stage of the shaders with an extension. -/
def ofExtension? (extension : Text) : Option Stage :=
  if extension = "vert".toList then some vertex
  else if extension = "frag".toList then some fragment
  else if extension = "geom".toList then some geometry
  else if extension = "tesc".toList then some tessellationControl
  else if extension = "tese".toList then some tessellationEvaluation
  else if extension = "comp".toList then some compute
  else none

/-- The stage of the shader at a path. -/
def ofPath? (path : Text) : Option Stage :=
  (Path.extension? path).bind ofExtension?

/-- The name of a stage. -/
def name : Stage → Text
  | vertex => "Vertex".toList
  | fragment => "Fragment".toList
  | geometry => "Geometry".toList
  | tessellationControl => "TessellationControl".toList
  | tessellationEvaluation => "TessellationEvaluation".toList
  | compute => "Compute".toList

end Stage

end ShaderInterface
