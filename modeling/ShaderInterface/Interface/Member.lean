import ShaderInterface.Interface.Attribute
import ShaderInterface.Interface.Comment

/-!
# Block Members

The members of a block are declared by a type and one or more names, divided by commas, with a
semicolon behind. Array sizes stand in brackets behind a name and stay part of it, each computed
to a whole number. From them and the type follows the size of a member in bytes.
-/

namespace ShaderInterface.Interface

open ShaderInterface.Text

/-- A member of a uniform or buffer block. -/
structure Member where
  /-- The type of the member, or of its elements if it is an array. -/
  type : Text
  /-- The name of the member, with its array sizes. -/
  name : Text
  deriving DecidableEq, Repr

namespace Member

/-- The greatest size, which stands for all sizes that are too great. -/
def sizeLimit : Nat := UInt64.size - 1

/-- The bytes that a value of a type takes. A vector of three takes the place of a vector of four.
-/
def typeSizes : List (Text × Nat) :=
  [("mat4".toList, 64), ("mat3".toList, 48),
    ("vec4".toList, 16), ("ivec4".toList, 16), ("uvec4".toList, 16),
    ("vec3".toList, 16), ("ivec3".toList, 16), ("uvec3".toList, 16),
    ("vec2".toList, 8), ("ivec2".toList, 8), ("uvec2".toList, 8),
    ("float".toList, 4), ("int".toList, 4), ("uint".toList, 4)]

/-- The bytes that a type takes for which no size is known. -/
def unknownTypeSize : Nat := 16

/-- The number that a text of digits writes, up to the greatest size. A plus sign may stand in
front. -/
def dimension? (text : Text) : Option Nat :=
  let digits := (['+'].isPrefixOf? text).getD text
  let n := Nat.ofDigitChars 10 digits 0
  if !digits.isEmpty && digits.all Char.isDigit && n ≤ sizeLimit then some n else none

/-- The array sizes in the name of a member, in order. One that is missing counts as one. -/
def arrayDims (member : Member) : List Nat :=
  ((member.name.splitOn '[').drop 1).map fun dimension =>
    (dimension? (trim (dimension.takeWhile (· != ']')))).getD 1

/-- The bytes of a single element. -/
def elementSize (member : Member) : Nat :=
  (typeSizes.lookup member.type).getD unknownTypeSize

/-- A size multiplied by one number after the other, as long as it does not exceed the limit. -/
def boundedProduct (size : Nat) (dims : List Nat) : Option Nat :=
  dims.foldlM (fun size dim => if size * dim ≤ sizeLimit then some (size * dim) else none) size

/-- The bytes that a member takes. -/
def size (member : Member) : Nat :=
  (boundedProduct member.elementSize member.arrayDims).getD sizeLimit

/-- What there is to say about the size of a member. -/
def sizeNotices (member : Member) : List Notice :=
  (if (typeSizes.lookup member.type).isNone then [.unknownMemberType member.type] else []) ++
    (if (boundedProduct member.elementSize member.arrayDims).isNone then
      [.memberSizeOverflow member.name] else [])

end Member

/-- The array sizes behind a name, each computed to a whole number in brackets. An empty pair of
brackets stays as it is, and what stands between the brackets of two sizes is dropped. -/
def foldDims (table : Macro.Table) (declaration text : Text) : Report Text :=
  match _hopen : text.cut? '[' with
  | none => return []
  | some (_, opened) =>
    match _hclose : opened.cut? ']' with
    | none => do
      Report.notice (.failure (.unterminatedArraySize declaration))
      Report.raise (.unterminatedArraySize declaration)
    | some (size, rest) => do
      let folded ←
        if size.trim.isEmpty then pure []
        else ofInt <$> layoutValue table .signed64 size.trim
      let following ← foldDims table declaration rest
      return '[' :: folded ++ ']' :: following
termination_by text.length
decreasing_by
  have := length_lt_of_cut? _hopen
  have := length_lt_of_cut? _hclose
  omega

/-- A declared name and the array sizes behind it. -/
def splitDims (declarator : Text) : Text × Text :=
  (declarator.takeWhile (· != '['), declarator.dropWhile (· != '['))

/-- Refuses a declaration in which a type or a name is missing. -/
def refuseMember {α : Type} (declaration : Text) : Report α := do
  Report.notice (.failure (.malformedMember declaration))
  Report.raise (.malformedMember declaration)

/-- The members that one declaration declares. The last two words before the first array size are
the type and the first name; the names behind the commas share the type. -/
def declaredMembers (table : Macro.Table) (declaration : Text) : Report (List Member) :=
  match declaration.splitOn ',' with
  | [] => refuseMember declaration
  | first :: others =>
    match (words (splitDims first).1).reverse with
    | name :: type :: _ => do
      let dims ← foldDims table declaration (splitDims first).2
      let rest ← others.mapM fun declarator =>
        let name := trim (splitDims declarator).1
        if name.isEmpty then refuseMember declaration
        else (fun dims => ({ type, name := name ++ dims } : Member)) <$>
          foldDims table declaration (splitDims declarator).2
      return { type, name := name ++ dims } :: rest
    | _ => refuseMember declaration

/-- The members that a block declares. -/
def blockMembers (table : Macro.Table) (block : Text) : Report (List Member) := do
  let declarations := ((stripComments block).splitOn ';').map trim
  let members ← (declarations.filter (!·.isEmpty)).mapM (declaredMembers table)
  return members.flatten

end ShaderInterface.Interface
