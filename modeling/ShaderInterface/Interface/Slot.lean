import ShaderInterface.Interface.Declaration
import ShaderInterface.Interface.Member

/-!
# Slots

A slot is an entry of the interface of a shader: a location, or a binding of a descriptor set,
with the type, the name and the members of what is bound there.
-/

namespace ShaderInterface.Interface

open ShaderInterface.Text

/-- An entry of the interface of a shader. Numbers that are not declared are -1. -/
structure Slot where
  location : Int
  binding : Int
  set : Int
  /-- The index of an input attachment. -/
  inputAttachment : Int
  /-- How many elements an array has. -/
  count : Nat
  /-- The type, or the name of the block type. -/
  type : Text
  /-- The name, which may be empty. -/
  name : Text
  storage : Storage
  members : List Member
  deriving DecidableEq, Repr

/-- What a descriptor is bound to. -/
inductive Descriptor where
  | uniformBuffer
  | storageBuffer
  | inputAttachment
  | combinedImageSampler
  deriving DecidableEq, Repr

/-- What a packager of shaders asks about a slot. -/
structure Description where
  fullName : Text
  /-- Whether the slot has a buffer of its own. -/
  isBuffer : Bool
  /-- The bytes from one element to the next. -/
  stride : Nat
  /-- The bytes to set aside. -/
  capacity : Nat
  descriptor : Descriptor
  deriving DecidableEq, Repr

namespace Slot

/-- The number that stands for one that is not declared. -/
def undeclared : Int := -1

/-- A slot about which nothing but type, name and storage is declared. -/
def plain (type name : Text) (storage : Storage) : Slot where
  location := undeclared
  binding := undeclared
  set := undeclared
  inputAttachment := undeclared
  count := 1
  type := type
  name := name
  storage := storage
  members := []

/-- The name of a slot, or its type if it has none. -/
def fullName (slot : Slot) : Text :=
  if slot.name.isEmpty then slot.type else slot.name

/-- Whether a slot has a buffer of its own: it has members, and it is not the uniform buffer that
all shaders share. -/
def isBuffer (slot : Slot) : Bool :=
  slot.type ≠ "UniformBufferObject".toList && !slot.members.isEmpty

/-- The bytes that the members take, up to the greatest size. -/
def stride (slot : Slot) : Nat :=
  slot.members.foldl (fun total member => min (total + member.size) Member.sizeLimit) 0

/-- The bytes to set aside for a slot. -/
def capacity (slot : Slot) : Nat :=
  slot.stride

/-- The descriptor that a slot needs, if the declaration tells. -/
def descriptor? (slot : Slot) : Option Descriptor :=
  if slot.storage = .storageBuffer ∨ slot.storage = .buffer then some .storageBuffer
  else if 0 ≤ slot.binding ∧ 0 ≤ slot.set ∧ slot.storage = .uniform ∧ slot.members ≠ [] then
    some .uniformBuffer
  else if slot.type = "subpassInput".toList ∨ slot.type = "subpassInputMS".toList then
    some .inputAttachment
  else if "sampler".toList.isPrefixOf slot.type then some .combinedImageSampler
  else none

/-- The descriptor that a slot needs: a uniform buffer, if nothing else is known. -/
def descriptor (slot : Slot) : Descriptor :=
  slot.descriptor?.getD .uniformBuffer

/-- The notices that come with finding the size of the members once. -/
def sizeNotices (slot : Slot) : List Notice :=
  slot.members.flatMap Member.sizeNotices

/-- The notice that comes with finding the descriptor. -/
def descriptorNotices (slot : Slot) : List Notice :=
  if slot.descriptor?.isNone then [.unknownDescriptor slot.fullName slot.type] else []

/-- The description of a slot. Its sizes are found twice, as stride and as capacity. -/
def describe (slot : Slot) : Report Description where
  notices := slot.sizeNotices ++ slot.sizeNotices ++ slot.descriptorNotices
  outcome := .ok
    { fullName := slot.fullName
      isBuffer := slot.isBuffer
      stride := slot.stride
      capacity := slot.capacity
      descriptor := slot.descriptor }

end Slot

end ShaderInterface.Interface
