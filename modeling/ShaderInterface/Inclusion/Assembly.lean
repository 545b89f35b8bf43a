import ShaderInterface.Inclusion.Fragment
import ShaderInterface.Inclusion.Provider
import ShaderInterface.Fault

/-!
# Assembling a Shader

A shader is assembled by walking through its segments and putting the fragments of every included
file in the place of the line that asks for it. The walk carries the chain of files that are open,
the innermost one first. A file that is on the chain is not opened again, so that each file opened
leaves fewer of the finitely many files that can be opened inside it.
-/

namespace ShaderInterface

namespace Provider

/-- Opens the file at a path, unless it is open already, on behalf of a line of another file. -/
def openFile (provider : Provider) (chain : List Text) (site : Site) (path : Text) :
    Except Fault Text :=
  if chain.contains path then .error (.recursiveInclude path site)
  else
    match provider.read path with
    | .error cause => .error (.unreadableFile path cause)
    | .ok text => .ok text

/-- Opens the file that a line of another file asks for, and tells its path. -/
def follow (provider : Provider) (chain : List Text) (site : Site) (request : Text) :
    Except Fault (Text × Text) :=
  match provider.resolve site.file request with
  | .error cause => .error (.unresolvedInclude request cause)
  | .ok path => (provider.openFile chain site path).map fun text => (path, text)

/-- A file on the chain is not opened again. -/
theorem openFile_of_mem {provider : Provider} {chain : List Text} {path : Text}
    (h : path ∈ chain) (site : Site) :
    provider.openFile chain site path = .error (.recursiveInclude path site) :=
  if_pos (List.contains_iff_mem.2 h)

/-- Any other file is opened as far as it can be read. -/
theorem openFile_of_not_mem {provider : Provider} {chain : List Text} {path : Text}
    (h : path ∉ chain) (site : Site) :
    provider.openFile chain site path =
      match provider.read path with
      | .error cause => .error (.unreadableFile path cause)
      | .ok text => .ok text :=
  if_neg (mt List.contains_iff_mem.1 h)

/-- A file that is opened was not open and can be read. -/
theorem of_openFile {provider : Provider} {chain : List Text} {site : Site} {path text : Text}
    (h : provider.openFile chain site path = .ok text) :
    path ∉ chain ∧ provider.read path = .ok text := by
  -- Only a file that is not on the chain is read.
  by_cases hopen : path ∈ chain
  · rw [openFile_of_mem hopen] at h
    cases h
  · rw [openFile_of_not_mem hopen] at h
    refine ⟨hopen, ?_⟩
    cases hread : provider.read path with
    | error cause =>
      rw [hread] at h
      cases h
    | ok found =>
      rw [hread] at h
      cases h
      rfl

/-- A file that is opened by request was not open and can be read. -/
theorem of_follow {provider : Provider} {chain : List Text} {site : Site}
    {request path text : Text} (h : provider.follow chain site request = .ok (path, text)) :
    path ∉ chain ∧ provider.read path = .ok text := by
  unfold follow at h
  split at h
  · simp at h
  next resolved hresolve =>
    cases hopen : provider.openFile chain site resolved with
    | error fault => simp [hopen, Except.map] at h
    | ok found =>
      simp only [hopen, Except.map, Except.ok.injEq, Prod.mk.injEq] at h
      obtain ⟨rfl, rfl⟩ := h
      exact of_openFile hopen

/-- The fragments of a file given by its segments, with those of all included files in their
places. -/
def assembleSegments (provider : Provider) (chain : List Text) (file : Text) :
    List Inclusion.Segment → Except Fault (List Fragment)
  | [] => .ok []
  | .code offset lines :: rest => do
    let fragments ← provider.assembleSegments chain file rest
    return { source := Text.unlines lines, file, offset } :: fragments
  | .request number request :: rest =>
    -- A fault of this line or of its file comes before those of the lines behind.
    match _h : provider.follow chain ⟨file, number⟩ request with
    | .error fault => .error fault
    | .ok (path, text) => do
      let included ← provider.assembleSegments (path :: chain) path (Inclusion.segments text)
      let following ← provider.assembleSegments chain file rest
      return included ++ following
termination_by segments => (provider.unopened chain, segments.length)
decreasing_by
  · exact .right _ (by simp)
  · exact .left _ _ (unopened_cons_lt (of_follow _h).2 (of_follow _h).1)
  · exact .right _ (by simp)

/-- The fragments of the shader at a path, in the order in which its lines are to be read. -/
def assemble (provider : Provider) (path : Text) : Except Fault (List Fragment) := do
  let text ← provider.openFile [] ⟨[], 0⟩ path
  provider.assembleSegments [path] path (Inclusion.segments text)

end Provider

end ShaderInterface
