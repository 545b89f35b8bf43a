import ShaderInterface.Text.Basic

/-!
# Paths

A path names a file by the directories on the way to it, divided by slashes. Empty parts and parts
that are a single dot name nothing new, wherever they stand, except for a dot at the very
beginning. Paths are only cut and joined here: `..` is kept as it is.
-/

namespace ShaderInterface.Path

/-- Whether a path starts at the root. -/
def isAbsolute (path : Text) : Bool :=
  path.head? = some '/'

/-- A path divided into its beginning, which is a slash, a single dot or nothing, and the rest. -/
def splitStart : Text → Text × Text
  | '/' :: rest => (['/'], rest)
  | ['.'] => (['.'], [])
  | '.' :: '/' :: rest => (['.'], '/' :: rest)
  | path => ([], path)

/-- Whether a part of a path names nothing new. -/
def isIdle (part : Text) : Bool :=
  part == [] || part == ['.']

/-- The parts of a path without the idle ones at its end. -/
def parts (path : Text) : List Text :=
  ((path.splitOn '/').reverse.dropWhile isIdle).reverse

/-- The path of the directory that holds a file, or the empty path when there is no part to drop. -/
def parent (path : Text) : Text :=
  let (start, rest) := splitStart path
  match parts rest with
  | [] => []
  | found => start ++ ['/'].intercalate ((found.dropLast.reverse.dropWhile isIdle).reverse)

/-- A path followed from a directory. An absolute path stands for itself. -/
def join (directory path : Text) : Text :=
  if isAbsolute path || directory.isEmpty || directory.getLast? = some '/' then
    if isAbsolute path then path else directory ++ path
  else directory ++ '/' :: path

/-- The path that an including file asks for, which is looked up beside that file. -/
def beside (includer request : Text) : Text :=
  join (parent includer) request

/-- The name of the file that a path leads to, if its last part is a name. -/
def fileName? (path : Text) : Option Text :=
  match (parts (splitStart path).2).getLast? with
  | some name => if name = ['.', '.'] then none else some name
  | none => none

/-- What follows the last dot of a file name. A dot at the beginning does not count. -/
def extension? (path : Text) : Option Text := do
  let name ← fileName? path
  let (extension, stem) ← Text.cut? '.' name.reverse
  if stem.isEmpty then none else some extension.reverse

end ShaderInterface.Path
