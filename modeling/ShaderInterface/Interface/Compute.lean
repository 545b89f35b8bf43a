import ShaderInterface.Interface.Reflection

/-!
# Compute Shaders

A compute shader declares how large its work groups are, by attributes of its input as a whole.
All its slots are storage buffers.
-/

namespace ShaderInterface.Interface

open ShaderInterface.Text

/-- The number of invocations of a work group along each axis. -/
structure WorkGroup where
  x : Nat
  y : Nat
  z : Nat
  deriving DecidableEq, Repr

namespace WorkGroup

/-- The work group of which nothing is said: one invocation. -/
def single : WorkGroup := ⟨1, 1, 1⟩

/-- The work group of a shader that has none. -/
def absent : WorkGroup := ⟨0, 0, 0⟩

/-- The keys of the three axes. -/
def axisKeys : List Text :=
  ["local_size_x".toList, "local_size_y".toList, "local_size_z".toList]

/-- Gives a work group the size that an attribute states, if the attribute concerns work groups. -/
def assign (table : Macro.Table) (group : WorkGroup) (pair : Text × Text) :
    Report WorkGroup :=
  let value := Int.toNat <$> layoutValue table .unsigned32 pair.2
  if pair.1 = "local_size_x".toList then (fun n => { group with x := n }) <$> value
  else if pair.1 = "local_size_y".toList then (fun n => { group with y := n }) <$> value
  else if pair.1 = "local_size_z".toList then (fun n => { group with z := n }) <$> value
  else return group

/-- The work group that the first declaration about it states. -/
def ofDeclarations? (table : Macro.Table) : List Declaration → Report (Option WorkGroup)
  | [] => return none
  | .stageWide attributes .input :: rest =>
    let pairs := attributePairs attributes
    if pairs.any fun (key, _) => key ∈ axisKeys then
      some <$> pairs.foldlM (assign table) single
    else ofDeclarations? table rest
  | _ :: rest => ofDeclarations? table rest

end WorkGroup

/-- The work group that a source declares. -/
def reflectWorkGroup (table : Macro.Table) (source : Text) : Report (Option WorkGroup) :=
  WorkGroup.ofDeclarations? table (declarations source)

/-- The work group and the slots of a compute shader. -/
def reflectCompute (table : Macro.Table) (source : Text) : Report (WorkGroup × List Slot) := do
  let declared ← reflectWorkGroup table source
  if declared.isNone then Report.notice .missingWorkGroup
  let slots ← reflect table source
  return (declared.getD .absent, slots.map fun slot => { slot with storage := .storageBuffer })

end ShaderInterface.Interface
