import ShaderInterface.Inclusion.Provider

/-!
# Directories

A directory offers the files below it, each under every path that leads to it. Includes are looked
up beside the file that asks for them. The paths are walked part by part, as a file system does
it: dots stay, double dots go up, and only a directory can be walked through. Outside of the
directory nothing is known to exist.

The reasons for failure are those of the file system, with their numbers. A file system refuses
paths that are too long, and for this reason offers finitely many of them.
-/

namespace ShaderInterface

/-- The files below a directory, each with the names that lead to it. -/
structure Directory where
  files : List (List Text × Text)

namespace Directory

/-- Why a file cannot be read. -/
inductive Failure where
  | notFound
  | isDirectory
  | notADirectory
  | nameTooLong
  | invalidName
  deriving DecidableEq, Repr

/-- The file system's message for a failure. -/
def Failure.message : Failure → Text
  | notFound => "No such file or directory (os error 2)".toList
  | isDirectory => "Is a directory (os error 21)".toList
  | notADirectory => "Not a directory (os error 20)".toList
  | nameTooLong => "File name too long (os error 36)".toList
  | invalidName => "file name contained an unexpected NUL byte".toList

/-- The greatest number of bytes in a path. -/
def pathLimit : Nat := 4095

/-- The greatest number of bytes in the name of a file or directory. -/
def nameLimit : Nat := 255

/-- The number of bytes that a text takes. -/
def byteCount (text : Text) : Nat :=
  text.foldr (fun c count => c.utf8Size + count) 0

/-- Where a walk has come to. -/
inductive Position where
  /-- The file or directory with these names leading to it, the last one first. -/
  | inside (names : List Text)
  /-- A directory outside. -/
  | outside
  deriving DecidableEq, Repr

variable (directory : Directory)

/-- The text of the file that some names lead to. -/
def file? (names : List Text) : Option Text :=
  directory.files.lookup names

/-- Whether some names lead to a directory. -/
def isDirectory (names : List Text) : Bool :=
  names.isEmpty || directory.files.any fun file => names.isPrefixOf file.1 && names ≠ file.1

/-- Takes one step of a walk. -/
def step (position : Position) (part : Text) : Except Failure Position :=
  match position with
  | .outside =>
    if Path.isIdle part || part = ['.', '.'] then .ok .outside else .error .notFound
  | .inside names =>
    -- Behind a file even an idle part fails, as in a path that ends with a slash.
    if !directory.isDirectory names.reverse then .error .notADirectory
    else if Path.isIdle part then .ok position
    else if part = ['.', '.'] then
      match names with
      | [] => .ok .outside
      | _ :: above => .ok (.inside above)
    else if nameLimit < byteCount part then .error .nameTooLong
    else if directory.isDirectory (part :: names).reverse ||
        (directory.file? (part :: names).reverse).isSome then
      .ok (.inside (part :: names))
    else .error .notFound

/-- Follows a path to the text of a file. -/
def read? (path : Text) : Except Failure Text :=
  if '\x00' ∈ path then .error .invalidName
  else if path.isEmpty then .error .notFound
  else if pathLimit < byteCount path then .error .nameTooLong
  else do
    let start := if Path.isAbsolute path then .outside else .inside []
    match ← (path.splitOn '/').foldlM directory.step start with
    | .outside => .error .isDirectory
    | .inside names =>
      match directory.file? names.reverse with
      | some text => .ok text
      | none => .error .isDirectory

/-- The names that a path leads through, when every part is followed as it is written. -/
def namesOf (path : Text) : List Text :=
  ((path.splitOn '/').foldl (fun names part =>
    if Path.isIdle part then names
    else if part = ['.', '.'] then names.drop 1
    else part :: names) []).reverse

/-- The directory with a list of files at the given paths. Of two files at one place the later one
stays. -/
def ofFiles (files : List (Text × Text)) : Directory :=
  ⟨(files.map fun file => (namesOf file.1, file.2)).reverse⟩

/-- There are finitely many texts up to any length. -/
theorem exists_texts_of_length_le (limit : Nat) :
    ∃ texts : List Text, ∀ text : Text, text.length ≤ limit → text ∈ texts := by
  induction limit with
  | zero => exact ⟨[[]], fun text h => by simp_all⟩
  | succ limit ih =>
    obtain ⟨texts, hmem⟩ := ih
    -- A text is empty, or a character in front of a shorter text.
    let characters := (List.range (2 ^ 32)).map Char.ofNat
    refine ⟨[] :: characters.flatMap fun c => texts.map (c :: ·), fun text h => ?_⟩
    cases text with
    | nil => simp
    | cons c rest =>
      have hc : c ∈ characters :=
        List.mem_map.2 ⟨c.toNat, List.mem_range.2 c.val.toBitVec.isLt, Char.ofNat_toNat c⟩
      have hrest : rest ∈ texts := hmem rest (by simpa using h)
      exact List.mem_cons_of_mem _
        (List.mem_flatMap.2 ⟨c, hc, List.mem_map.2 ⟨rest, hrest, rfl⟩⟩)

/-- A text has no more characters than bytes. -/
theorem length_le_byteCount (text : Text) : text.length ≤ byteCount text := by
  induction text with
  | nil => simp [byteCount]
  | cons c rest ih =>
    have := c.utf8Size_pos
    simp only [byteCount, List.foldr_cons, List.length_cons] at *
    omega

/-- Only paths that are short enough can be read. -/
theorem length_le_of_read? {path text : Text} (h : directory.read? path = .ok text) :
    path.length ≤ pathLimit := by
  unfold read? at h
  split at h
  · simp at h
  · split at h
    · simp at h
    · split at h
      · simp at h
      next hlimit =>
        have := length_le_byteCount path
        omega

/-- The provider of the files of a directory. -/
def provider : Provider where
  resolve includer request := .ok (Path.beside includer request)
  read path := (directory.read? path).mapError Failure.message
  finite := by
    obtain ⟨texts, hmem⟩ := exists_texts_of_length_le pathLimit
    refine ⟨texts, fun path text h => hmem path ?_⟩
    cases hread : directory.read? path with
    | error failure =>
      rw [hread] at h
      cases h
    | ok found => exact directory.length_le_of_read? hread

end Directory

end ShaderInterface
