import ShaderInterface.Interface.Comment
import ShaderInterface.Text.Numeric

/-!
# Declarations

The interface of a shader is declared by `layout`, a list of attributes in parentheses, any number
of memory qualifiers, and a storage qualifier. Either a semicolon follows, and the attributes
apply to the whole stage, or a variable or a block: a type, and then, each of which may be
missing, a name, members in braces, a name of the block's instance, and an array size in brackets.
What stands between delimiters is taken as it is up to the first closing one.

Declarations are looked for at every name of the source that is `layout`. A place where no
declaration can be read is passed over, but what follows the name there is still searched.
-/

namespace ShaderInterface

open ShaderInterface.Text

/-- Where the values of an interface variable are kept. -/
inductive Storage where
  | input
  | output
  | uniform
  | buffer
  /-- The storage of everything that a compute shader declares. -/
  | storageBuffer
  deriving DecidableEq, Repr

namespace Storage

/-- The storage that a qualifier asks for. -/
def ofQualifier? (qualifier : Text) : Option Storage :=
  if qualifier = "in".toList then some .input
  else if qualifier = "out".toList then some .output
  else if qualifier = "uniform".toList then some .uniform
  else if qualifier = "buffer".toList then some .buffer
  else none

/-- The text of a storage: its qualifier, if there is one that asks for it. -/
def text : Storage → Text
  | input => "in".toList
  | output => "out".toList
  | uniform => "uniform".toList
  | buffer => "buffer".toList
  | storageBuffer => "StorageBuffer".toList

end Storage

namespace Interface

/-- The declaration of an interface variable or block, as it is written. -/
structure Variable where
  /-- What stands between the parentheses. -/
  attributes : Text
  /-- Where its values are kept. -/
  storage : Storage
  /-- The type, or the name of the block type. -/
  type : Text
  /-- The name behind the type. -/
  name : Option Text
  /-- The members of a block. -/
  block : Option Text
  /-- The name behind the members. -/
  instanceName : Option Text
  /-- The size of an array. -/
  array : Option Text
  deriving DecidableEq, Repr

/-- A declaration. -/
inductive Declaration where
  /-- Attributes that apply to the whole stage. -/
  | stageWide (attributes : Text) (storage : Storage)
  /-- A variable or a block. -/
  | interface (declared : Variable)
  deriving DecidableEq, Repr

/-- Reads a name behind blanks and comments. -/
def name? (text : Text) : Option (Text × Text) :=
  match skipTrivia text with
  | [] => none
  | c :: rest =>
    if opensName c then some (c :: rest.takeWhile continuesName, rest.dropWhile continuesName)
    else none

/-- Reads a given character behind blanks and comments. -/
def symbol? (symbol : Char) (text : Text) : Option Text :=
  match skipTrivia text with
  | [] => none
  | c :: rest => if c = symbol then some rest else none

/-- What follows a name is shorter than the text that it was read from. -/
theorem length_lt_of_name? {text name rest : Text} (h : name? text = some (name, rest)) :
    rest.length < text.length := by
  have bound := length_skipTrivia_le text
  unfold name? at h
  split at h
  · cases h
  next c after eq =>
    split at h
    · cases h
      have := (List.dropWhile_suffix continuesName (l := after)).length_le
      rw [eq, List.length_cons] at bound
      omega
    · cases h

/-- What follows a character is shorter than the text that it was read from. -/
theorem length_lt_of_symbol? {symbol : Char} {text rest : Text}
    (h : symbol? symbol text = some rest) : rest.length < text.length := by
  have bound := length_skipTrivia_le text
  unfold symbol? at h
  split at h
  · cases h
  next c after eq =>
    split at h
    · cases h
      rw [eq, List.length_cons] at bound
      omega
    · cases h

/-- Reads a name, if there is one. -/
def optionalName (text : Text) : Option Text × Text :=
  match name? text with
  | some (name, rest) => (some name, rest)
  | none => (none, text)

/-- Reads what stands between two delimiters, if the opening one is there. Then the closing one
must be there too. -/
def optionalEnclosed? (opening closing : Char) (text : Text) : Option (Option Text × Text) :=
  match symbol? opening text with
  | some rest => (rest.cut? closing).map fun (inner, after) => (some inner, after)
  | none => some (none, text)

/-- The qualifiers that say how memory is accessed. -/
def memoryQualifiers : List Text :=
  ["readonly".toList, "writeonly".toList, "coherent".toList, "volatile".toList, "restrict".toList]

/-- Reads the first name that is no memory qualifier. -/
def qualifier? (text : Text) : Option (Text × Text) :=
  match _h : name? text with
  | none => none
  | some (word, rest) => if word ∈ memoryQualifiers then qualifier? rest else some (word, rest)
termination_by text.length
decreasing_by exact length_lt_of_name? _h

/-- Reads the parts of a variable or block that follow its storage qualifier. -/
def declared? (attributes : Text) (storage : Storage) (text : Text) : Option (Variable × Text) := do
  let (type, afterType) ← name? text
  let (name, afterName) := optionalName afterType
  let (block, afterBlock) ← optionalEnclosed? '{' '}' afterName
  let (instanceName, afterInstance) := optionalName afterBlock
  let (array, rest) ← optionalEnclosed? '[' ']' afterInstance
  return ({ attributes, storage, type, name, block, instanceName, array }, rest)

/-- Reads a declaration behind the name `layout`. -/
def declaration? (text : Text) : Option (Declaration × Text) := do
  let opened ← symbol? '(' text
  let (attributes, closed) ← opened.cut? ')'
  let (qualifier, afterQualifier) ← qualifier? closed
  let storage ← Storage.ofQualifier? qualifier
  match symbol? ';' afterQualifier with
  | some rest => return (.stageWide attributes storage, rest)
  | none =>
    let (declared, rest) ← declared? attributes storage afterQualifier
    return (.interface declared, rest)

/-- An optional name makes no text longer. -/
theorem length_optionalName_le (text : Text) : (optionalName text).2.length ≤ text.length := by
  unfold optionalName
  split
  next h => exact Nat.le_of_lt (length_lt_of_name? h)
  next => exact Nat.le_refl _

/-- Optional delimiters make no text longer. -/
theorem length_le_of_optionalEnclosed? {opening closing : Char} {text rest : Text}
    {inner : Option Text} (h : optionalEnclosed? opening closing text = some (inner, rest)) :
    rest.length ≤ text.length := by
  unfold optionalEnclosed? at h
  split at h
  next opened hopened =>
    obtain ⟨⟨found, after⟩, hcut, heq⟩ := Option.map_eq_some_iff.1 h
    cases heq
    have := length_lt_of_symbol? hopened
    have := length_lt_of_cut? hcut
    omega
  next =>
    cases h
    exact Nat.le_refl _

/-- What follows a qualifier is shorter than the text that it was read from. -/
theorem length_lt_of_qualifier? {text word rest : Text} (h : qualifier? text = some (word, rest)) :
    rest.length < text.length := by
  fun_induction qualifier? text with
  | case1 => cases h
  | case2 text _ after hname _ ih =>
    have := length_lt_of_name? hname
    have := ih h
    omega
  | case3 text _ after hname =>
    cases h
    exact length_lt_of_name? hname

/-- What follows a variable is shorter than the text that it was read from. -/
theorem length_lt_of_declared? {attributes text rest : Text} {storage : Storage}
    {declared : Variable} (h : declared? attributes storage text = some (declared, rest)) :
    rest.length < text.length := by
  simp only [declared?, Option.bind_eq_bind, Option.bind_eq_some_iff, Option.pure_def,
    Option.some.injEq, Prod.mk.injEq, Prod.exists] at h
  -- The type is always read, and no optional part makes the text longer.
  obtain ⟨type, afterType, htype, block, afterBlock, hblock, array, last, harray, _, rfl⟩ := h
  have := length_lt_of_name? htype
  have := length_optionalName_le afterType
  have := length_le_of_optionalEnclosed? hblock
  have := length_optionalName_le afterBlock
  have := length_le_of_optionalEnclosed? harray
  omega

/-- What follows a declaration is shorter than the text that it was read from. -/
theorem length_lt_of_declaration? {text rest : Text} {declaration : Declaration}
    (h : declaration? text = some (declaration, rest)) : rest.length < text.length := by
  simp only [declaration?, Option.bind_eq_bind, Option.bind_eq_some_iff, Prod.exists] at h
  obtain ⟨opened, hopened, attributes, closed, hclosed, word, after, hword, storage, _, h⟩ := h
  have := length_lt_of_symbol? hopened
  have := length_lt_of_cut? hclosed
  have := length_lt_of_qualifier? hword
  split at h
  next stop hstop =>
    cases h
    have := length_lt_of_symbol? hstop
    omega
  next =>
    obtain ⟨⟨declared, last⟩, hdeclared, heq⟩ := Option.bind_eq_some_iff.1 h
    cases heq
    have := length_lt_of_declared? hdeclared
    show last.length < text.length
    omega

/-- The declarations of a source, in order. -/
def declarations (source : Text) : List Declaration :=
  match _hsource : skipTrivia source with
  | [] => []
  | c :: after =>
    match _hname : name? (c :: after) with
    | none => declarations after
    | some (name, rest) =>
      if name = "layout".toList then
        match _h : declaration? rest with
        | some (declaration, behind) => declaration :: declarations behind
        -- However far the attempt has read, the search goes on right behind the name.
        | none => declarations rest
      else declarations rest
termination_by source.length
decreasing_by
  all_goals have bound := length_skipTrivia_le source
  all_goals rw [_hsource, List.length_cons] at bound
  · omega
  all_goals have := length_lt_of_name? _hname
  all_goals rw [List.length_cons] at this
  · have := length_lt_of_declaration? _h
    omega
  · omega
  · omega

end Interface

end ShaderInterface
