import ShaderInterface.Inclusion.Assembly
import ShaderInterface.Inclusion.Directory
import ShaderInterface.Inclusion.Supplier
import ShaderInterface.Interface.Compute
import ShaderInterface.Macro.Arguments
import ShaderInterface.Preprocessing.Source
import ShaderInterface.Stage

/-!
# Shaders

A shader is assembled from its files, preprocessed and reflected. Its stage is told by its path; a
shader of unknown stage is reflected like one of the graphics pipeline, after an error notice.
-/

namespace ShaderInterface

/-- A shader and its interface. -/
structure Shader where
  /-- The path of the shader. -/
  file : Text
  /-- The stage, if the path tells it. -/
  stage : Option Stage
  /-- The source, assembled and preprocessed. -/
  source : Text
  /-- The macros that are defined in the end. -/
  table : Macro.Table
  /-- The interface. -/
  slots : List Interface.Slot
  /-- The work group of a compute shader. -/
  workGroup : Interface.WorkGroup
  deriving DecidableEq

namespace Shader

/-- Whether a shader is a compute shader. -/
def isCompute (shader : Shader) : Bool :=
  shader.stage == some .compute

/-- The name of the stage, empty if the stage is unknown. -/
def stageName (shader : Shader) : Text :=
  (shader.stage.map Stage.name).getD []

/-- The work group and the interface of a source at a stage. -/
def reflect (stage : Option Stage) (preprocessed : Preprocessing.Source) :
    Report (Interface.WorkGroup × List Interface.Slot) :=
  if stage = some .compute then
    Interface.reflectCompute preprocessed.table preprocessed.text
  else do
    return (.absent, ← Interface.reflect preprocessed.table preprocessed.text)

/-- The shader at a path, made from its fragments and the macros that a command line defines. -/
def ofFragments (stage : Option Stage) (path commandLine : Text)
    (assembled : Report (List Fragment)) : Report Shader := do
  let fragments ← assembled
  let preprocessed ← Preprocessing.preprocess (.ofArguments commandLine) fragments
  let (workGroup, slots) ← reflect stage preprocessed
  return {
    file := path
    stage
    source := preprocessed.text
    table := preprocessed.table
    slots
    workGroup }

/-- The shader at a path, after a notice if the path does not tell its stage. -/
def ofAssembled (path commandLine : Text) (assembled : Report (List Fragment)) : Report Shader := do
  let stage := Stage.ofPath? path
  if stage.isNone then Report.notice (.unknownStage path)
  ofFragments stage path commandLine assembled

/-- Reads the shader at a path from the files of a provider. -/
def read (provider : Provider) (path commandLine : Text) : Report Shader :=
  ofAssembled path commandLine (.ofExcept (provider.assemble path))

/-- Reads the shader at a path from the files of a supplier, where at most `depth` files may be open at
once. -/
def readFrom {World : Type} (supplier : Supplier World) (depth : Nat) (path commandLine : Text)
    (world : World) : Option (Report Shader × World) := do
  let (assembled, world) ← supplier.assemble depth path world
  some (ofAssembled path commandLine assembled, world)

end Shader

end ShaderInterface
