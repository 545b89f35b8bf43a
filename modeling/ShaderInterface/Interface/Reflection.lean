import ShaderInterface.Interface.Slot

/-!
# Reflection

The declarations of a source are turned into slots. The attributes of a declaration give the
numbers of its slot, the last one of a key winning. An array whose location is given takes one
location for each element and becomes as many slots.
-/

namespace ShaderInterface.Interface

open ShaderInterface.Text

/-- The greatest number of elements of an array whose location is given. -/
def locationArrayLimit : Nat := 4096

/-- The greatest location. -/
def greatestLocation : Int := Number.IntRange.signed32.greatest

namespace Variable

/-- The name of a variable or block: the one behind the type, or else that of the instance. Behind
the qualifier `flat`, which stands in the place of the type, there is the true type in the place
of the name. -/
def shownName (declared : Variable) : Text :=
  match declared.name with
  | some name => if declared.type = "flat".toList then declared.instanceName.getD [] else name
  | none => declared.instanceName.getD []

/-- How many elements are declared. An array without a size counts as one element, and so does one
whose size is below one. -/
def elementCount (table : Macro.Table) (declared : Variable) : Report Nat :=
  match declared.array.map trim with
  | none | some [] => return 1
  | some size => do
    let count ← layoutValue table .signed64 size
    if count < 1 then Report.notice (.emptyArray size declared.shownName)
    return (max count 1).toNat

/-- Whether the location is given. -/
def hasLocation (declared : Variable) : Bool :=
  (attributePairs declared.attributes).any fun (key, _) => key = "location".toList

end Variable

namespace Slot

/-- Gives a slot the number that an attribute states, if the attribute concerns slots. -/
def assign (table : Macro.Table) (slot : Slot) (pair : Text × Text) : Report Slot :=
  let value := layoutValue table .signed32 pair.2
  if pair.1 = "location".toList then (fun n => { slot with location := n }) <$> value
  else if pair.1 = "binding".toList then (fun n => { slot with binding := n }) <$> value
  else if pair.1 = "set".toList then (fun n => { slot with set := n }) <$> value
  else if pair.1 = "input_attachment_index".toList then
    (fun n => { slot with inputAttachment := n }) <$> value
  else return slot

/-- The slots of the elements of an array that starts at the location of a slot. -/
def elements (slot : Slot) : List Slot :=
  (List.range slot.count).map fun (k : Nat) =>
    { slot with location := slot.location + k, count := 1 }

/-- Whether there are enough locations for the elements of an array. -/
def elementsFit (slot : Slot) : Bool :=
  slot.count ≤ locationArrayLimit && slot.location + (slot.count - 1 : Nat) ≤ greatestLocation

end Slot

namespace Variable

/-- The declaration as messages show it. -/
def text (declared : Variable) (fullName : Text) : Text :=
  "layout(".toList ++ declared.attributes ++ ") ".toList ++ declared.storage.text ++ " ".toList ++
    declared.type ++ " ".toList ++ fullName

/-- The slots that take the place of the one declared: one for each element if the location is
given, and only this one otherwise. -/
def expand (declared : Variable) (slot : Slot) : Report (List Slot) :=
  if declared.hasLocation && 1 < slot.count then
    if slot.elementsFit then return slot.elements
    else do
      let fault := .locationsOutOfRange slot.count slot.location slot.fullName
        (declared.text slot.fullName)
      Report.notice (.failure fault)
      Report.raise fault
  else return [slot]

/-- The slots that a variable or block takes. -/
def slots (table : Macro.Table) (declared : Variable) : Report (List Slot) := do
  let count ← declared.elementCount table
  let slot := { Slot.plain declared.type declared.shownName declared.storage with count }
  let slot ← (attributePairs declared.attributes).foldlM (Slot.assign table) slot
  let members ← blockMembers table (declared.block.getD [])
  declared.expand { slot with members }

end Variable

/-- The slots that declarations take, in order. -/
def slotsOf (table : Macro.Table) : List Declaration → Report (List Slot)
  | [] => return []
  | .stageWide .. :: rest => slotsOf table rest
  | .interface declared :: rest => do
    let slots ← declared.slots table
    let following ← slotsOf table rest
    return slots ++ following

/-- The interface of a source under a table. -/
def reflect (table : Macro.Table) (source : Text) : Report (List Slot) :=
  slotsOf table (declarations source)

end ShaderInterface.Interface
