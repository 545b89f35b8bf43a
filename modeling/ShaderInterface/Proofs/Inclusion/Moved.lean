import ShaderInterface.Proofs.Inclusion.Path
import ShaderInterface.Proofs.Inclusion.Provenance
import ShaderInterface.Proofs.Inclusion.Walk

/-!
# Moving a Tree of Files

Files that are looked up beside each other can be moved into a directory together. Every path that is asked
for on the way moves with them, so that the walk through the moved files opens the same files in their new
places, in the same order, and finds the same one open already or missing.

What is needed of the new places is said first, for any provider: different files are in different places,
and what a moved file asks for has been moved to the place that the answer leads to.

## Main definitions

* `Fragment.moved`, `Fault.moved`: fragments and faults of files in other places.
* `Provider.Mirrors`: a provider of files in other places.
* `Provider.relative`: the provider of files that are looked up beside each other.

## Main results

* `Provider.Mirrors.assembleSegments`: the walk through files in other places.
* `Provider.assemble_moved`: the assembly of a shader whose files are moved into a directory.
-/

namespace ShaderInterface

open ShaderInterface.Text ShaderInterface.Inclusion

/-! ## Telling other places -/

section

variable (place missing : Text → Text)

/-- A fragment of a file in another place. -/
def Fragment.moved (fragment : Fragment) : Fragment :=
  { fragment with file := place fragment.file }

/-- A line of a file in another place. -/
def Site.moved (site : Site) : Site :=
  { site with file := place site.file }

/-- A fault of the walk through files in other places. Why a file there cannot be read is told by
`missing`. -/
def Fault.moved : Fault → Fault
  | .unreadableFile path _ => .unreadableFile (place path) (missing (place path))
  | .recursiveInclude path site => .recursiveInclude (place path) (site.moved place)
  | fault => fault

variable {α β : Type}

/-- An outcome for files in other places, where `result` moves what is found. -/
def movedOutcome (result : α → β) (outcome : Except Fault α) : Except Fault β :=
  (outcome.map result).mapError (Fault.moved place missing)

end

variable {place missing : Text → Text}

namespace Provider

/-! ## A provider of files in other places -/

/-- A provider has the files of another one in other places, as far as they are reached: what a file that is
reached asks for leads to a file that is reached, and to its other place from the other place of the first
one. -/
structure Mirrors (mirror original : Provider) (place missing : Text → Text)
    (reached asked : Text → Prop) : Prop where
  injective : Function.Injective place
  read_ok : ∀ {path text}, original.read path = .ok text → mirror.read (place path) = .ok text
  read_error : ∀ {path cause}, original.read path = .error cause →
    mirror.read (place path) = .error (missing (place path))
  asks : ∀ {path text}, original.read path = .ok text → ∀ line ∈ lines text, ∀ request,
    request? line = some request → asked request
  resolve : ∀ {file request}, reached file → asked request → ∃ path,
    original.resolve file request = .ok path ∧ reached path ∧
      mirror.resolve (place file) request = .ok (place path)

namespace Mirrors

variable {mirror original : Provider} {reached asked : Text → Prop} {chain : List Text} {site : Site}
  {file path text request : Text}

/-- A file in another place is opened as the file is. -/
theorem openFile (h : mirror.Mirrors original place missing reached asked) (chain : List Text)
    (site : Site) (path : Text) :
    mirror.openFile (chain.map place) (site.moved place) (place path) =
      movedOutcome place missing id (original.openFile chain site path) := by
  by_cases hopen : path ∈ chain
  · rw [openFile_of_mem hopen, openFile_of_mem (List.mem_map_of_mem hopen)]
    rfl
  · -- Files in different places stay apart, so that no other open file is taken for this one.
    have hnew : place path ∉ chain.map place := fun hmem =>
      hopen ((List.mem_map_of_injective h.injective).1 hmem)
    rw [openFile_of_not_mem hopen, openFile_of_not_mem hnew]
    cases hread : original.read path with
    | error cause =>
      rw [h.read_error hread]
      rfl
    | ok text =>
      rw [h.read_ok hread]
      rfl

/-- An include line in another place opens the file in its other place. -/
theorem follow (h : mirror.Mirrors original place missing reached asked) (hfile : reached file)
    (hrequest : asked request) (chain : List Text) (number : Nat) :
    mirror.follow (chain.map place) ⟨place file, number⟩ request =
      movedOutcome place missing (Prod.map place id) (original.follow chain ⟨file, number⟩ request) := by
  obtain ⟨path, hresolve, -, hmoved⟩ := h.resolve hfile hrequest
  have hopen : mirror.openFile (chain.map place) ⟨place file, number⟩ (place path) = _ :=
    h.openFile chain ⟨file, number⟩ path
  simp only [Provider.follow, hresolve, hmoved, hopen]
  cases original.openFile chain ⟨file, number⟩ path <;> rfl

/-- A file that is opened by request is reached. -/
theorem reached_of_follow (h : mirror.Mirrors original place missing reached asked)
    (hfile : reached file) (hrequest : asked request) {number : Nat}
    (hfollow : original.follow chain ⟨file, number⟩ request = .ok (path, text)) : reached path := by
  obtain ⟨found, hresolve, hfound, -⟩ := h.resolve hfile hrequest
  obtain rfl : found = path :=
    Except.ok.inj (hresolve.symm.trans (follow_eq_ok_iff.1 hfollow).resolve)
  exact hfound

/-- What the segments of a file ask for is asked for. -/
theorem asked_of_mem_segments (h : mirror.Mirrors original place missing reached asked)
    (hread : original.read path = .ok text) :
    ∀ number request, .request number request ∈ segments text → asked request := by
  intro number request hmem
  obtain ⟨line, hline, hrequest⟩ := exists_line_of_mem_segmentLines rfl hmem
  exact h.asks hread line hline request hrequest

/-- The walk through files in other places gives the same fragments there, or the same fault. -/
theorem assembleSegments (h : mirror.Mirrors original place missing reached asked) (hfile : reached file)
    {parts : List Segment} (hparts : ∀ number request, .request number request ∈ parts → asked request) :
    mirror.assembleSegments (chain.map place) (place file) parts =
      movedOutcome place missing (List.map (Fragment.moved place))
        (original.assembleSegments chain file parts) := by
  -- The chain of open files moves with the file, so that both walks meet their open files together.
  fun_induction Provider.assembleSegments original chain file parts with
  | case1 chain file =>
    rw [Provider.assembleSegments]
    rfl
  | case2 chain file offset lines rest ih =>
    have hrest := ih hfile fun number request hmem => hparts number request (List.mem_cons_of_mem _ hmem)
    rw [Provider.assembleSegments, hrest]
    cases original.assembleSegments chain file rest <;> rfl
  | case3 chain file number request rest fault hfollow =>
    have hmoved := h.follow hfile (hparts number request (List.mem_cons_self ..)) chain number
    rw [assembleSegments_request, hmoved, hfollow]
    rfl
  | case4 chain file number request rest path text hfollow ihinside ih =>
    have hrequest := hparts number request (List.mem_cons_self ..)
    have hmoved := h.follow hfile hrequest chain number
    have hinside := ihinside (h.reached_of_follow hfile hrequest hfollow)
      (h.asked_of_mem_segments (of_follow hfollow).2)
    have hrest := ih hfile fun number request hmem => hparts number request (List.mem_cons_of_mem _ hmem)
    rw [List.map_cons] at hinside
    rw [assembleSegments_request, hmoved, hfollow]
    show (mirror.assembleSegments (place path :: chain.map place) (place path) (segments text) >>=
      fun included => mirror.assembleSegments (chain.map place) (place file) rest >>=
        fun following => pure (included ++ following)) = _
    rw [hinside, hrest]
    cases original.assembleSegments (path :: chain) path (segments text) with
    | error fault => rfl
    | ok included =>
      cases original.assembleSegments chain file rest with
      | error fault => rfl
      | ok following => exact congrArg Except.ok List.map_append.symm

/-- The assembly of a shader in another place gives the same fragments there, or the same fault. -/
theorem assemble (h : mirror.Mirrors original place missing reached asked) (hentry : reached path) :
    mirror.assemble (place path) =
      movedOutcome place missing (List.map (Fragment.moved place)) (original.assemble path) := by
  have hopen : mirror.openFile [] ⟨[], 0⟩ (place path) =
      movedOutcome place missing id (original.openFile [] ⟨[], 0⟩ path) :=
    h.openFile [] ⟨[], 0⟩ path
  rw [Provider.assemble, Provider.assemble, hopen]
  cases hfound : original.openFile [] ⟨[], 0⟩ path with
  | error fault => rfl
  | ok text =>
    show mirror.assembleSegments ([path].map place) (place path) (segments text) = _
    exact h.assembleSegments hentry (h.asked_of_mem_segments (of_openFile hfound).2)

end Mirrors

/-! ## Files that are looked up beside each other -/

/-- The provider of files that are looked up beside the file that asks for them. Why a path leads to none of
them is told by `missing`. -/
def relative (missing : Text → Text) (files : List (Text × Text)) : Provider :=
  .ofFiles (fun includer request => .ok (Path.beside includer request)) missing files

variable {files : List (Text × Text)} {path text cause : Text}

/-- A file that can be read is one of the files. -/
theorem lookup_of_read (h : (relative missing files).read path = .ok text) :
    files.lookup path = some text := by
  cases hfound : files.lookup path with
  | none =>
    simp only [relative, ofFiles, hfound] at h
    cases h
  | some found =>
    simp only [relative, ofFiles, hfound] at h
    cases h
    rfl

/-- A file that cannot be read is none of the files. -/
theorem lookup_of_read_error (h : (relative missing files).read path = .error cause) :
    files.lookup path = none := by
  cases hfound : files.lookup path with
  | none => rfl
  | some found =>
    simp only [relative, ofFiles, hfound] at h
    cases h

/-- A file is found in its new place. -/
theorem lookup_map_place (hplace : Function.Injective place) (files : List (Text × Text)) (path : Text) :
    (files.map (Prod.map place id)).lookup (place path) = files.lookup path := by
  induction files with
  | nil => rfl
  | cons file rest ih =>
    obtain ⟨name, text⟩ := file
    rw [List.map_cons, Prod.map_apply, List.lookup_cons, List.lookup_cons, ih]
    by_cases hname : path = name
    · rw [hname, beq_self_eq_true, beq_self_eq_true]
      rfl
    · rw [beq_false_of_ne hname, beq_false_of_ne (hplace.ne hname)]

/-- Files in a directory are a mirror of the files, as far as proper paths are asked for. -/
theorem mirrors_relative {files : List (Text × Text)} {directory : Text} (missing missing' : Text → Text)
    (hdirectory : Path.IsProper directory)
    (hrequests : ∀ file ∈ files, ∀ line ∈ lines file.2, ∀ request, request? line = some request →
      Path.IsProper request) :
    (relative missing' (files.map (Prod.map (Path.under directory) id))).Mirrors (relative missing files)
      (Path.under directory) missing' Path.IsProper Path.IsProper where
  injective := Path.under_injective directory
  read_ok {path text} h := by
    have hfound := lookup_of_read h
    rw [← lookup_map_place (Path.under_injective directory)] at hfound
    simp only [relative, ofFiles, hfound]
  read_error {path cause} h := by
    have hnone := lookup_of_read_error h
    rw [← lookup_map_place (Path.under_injective directory)] at hnone
    simp only [relative, ofFiles, hnone]
  asks {path text} h := by
    obtain ⟨before, after, rfl, -⟩ := List.lookup_eq_some_iff.1 (lookup_of_read h)
    exact hrequests (path, text) (List.mem_append_right _ (List.mem_cons_self ..))
  resolve {file request} hfile hrequest := by
    refine ⟨Path.beside file request, rfl, Path.isProper_beside hfile hrequest, ?_⟩
    exact congrArg Except.ok (Path.beside_under hdirectory hfile hrequest)

/-- A shader whose files are moved into a directory gives the fragments of the shader, moved into the
directory, and fails exactly where it does, with the files that are told of moved into the directory. All
paths that are asked for have to be proper. -/
theorem assemble_moved (missing missing' : Text → Text) (files : List (Text × Text))
    {directory entry : Text} (hdirectory : Path.IsProper directory) (hentry : Path.IsProper entry)
    (hrequests : ∀ file ∈ files, ∀ line ∈ lines file.2, ∀ request, request? line = some request →
      Path.IsProper request) :
    (relative missing' (files.map (Prod.map (Path.under directory) id))).assemble
        (Path.under directory entry) =
      movedOutcome (Path.under directory) missing' (List.map (Fragment.moved (Path.under directory)))
        ((relative missing files).assemble entry) :=
  (mirrors_relative missing missing' hdirectory hrequests).assemble hentry

/-- Files that include each other from several directories, one of them twice, and a file that includes
itself. -/
def exampleTree : List (Text × Text) :=
  [("a/main".toList, "#include \"../lib/x\"\nm\n#include <b/y>\n".toList),
    ("a/../lib/x".toList, "#include \"z\"\n".toList), ("a/../lib/z".toList, "z\n".toList),
    ("a/b/y".toList, "y\n#include \"../../lib/z\"\n".toList),
    ("a/b/../../lib/z".toList, "z\n".toList), ("a/loop".toList, "l\n#include \"loop\"\n".toList)]

/-- The files are found in `d/e` as they are found without it, through double dots and on two ways to one
file, and so is the file that is open already. -/
theorem assemble_exampleTree :
    Path.IsProper "d/e".toList ∧ Path.IsProper "a/main".toList ∧ Path.IsProper "a/loop".toList ∧
    (∀ file ∈ exampleTree, ∀ line ∈ lines file.2, ∀ request, request? line = some request →
      Path.IsProper request) ∧
    (relative id (exampleTree.map (Prod.map (Path.under "d/e".toList) id))).assemble
        "d/e/a/main".toList =
      .ok [⟨"z\n".toList, "d/e/a/../lib/z".toList, 0⟩, ⟨"m\n".toList, "d/e/a/main".toList, 1⟩,
        ⟨"y\n".toList, "d/e/a/b/y".toList, 0⟩, ⟨"z\n".toList, "d/e/a/b/../../lib/z".toList, 0⟩] ∧
    (relative id (exampleTree.map (Prod.map (Path.under "d/e".toList) id))).assemble
        "d/e/a/loop".toList =
      .error (.recursiveInclude "d/e/a/loop".toList ⟨"d/e/a/loop".toList, 2⟩) := by
  have hdirectory : Path.IsProper "d/e".toList := by decide
  have hmain : Path.IsProper "a/main".toList := by decide
  have hloop : Path.IsProper "a/loop".toList := by decide
  have hrequests : ∀ file ∈ exampleTree, ∀ line ∈ lines file.2, ∀ request,
      request? line = some request → Path.IsProper request := by
    show ∀ file ∈ exampleTree, ∀ line ∈ lines file.2, ∀ request ∈ request? line, Path.IsProper request
    decide +kernel
  have hfragments : (relative id exampleTree).supplier.assemble 3 "a/main".toList () =
      some (pure [⟨"z\n".toList, "a/../lib/z".toList, 0⟩, ⟨"m\n".toList, "a/main".toList, 1⟩,
        ⟨"y\n".toList, "a/b/y".toList, 0⟩, ⟨"z\n".toList, "a/b/../../lib/z".toList, 0⟩], ()) :=
    rfl
  have hfault : (relative id exampleTree).supplier.assemble 1 "a/loop".toList () =
      some (.ofExcept (.error (.recursiveInclude "a/loop".toList ⟨"a/loop".toList, 2⟩)), ()) :=
    rfl
  have hmoved := assemble_moved id id exampleTree hdirectory hmain hrequests
  have hfailed := assemble_moved id id exampleTree hdirectory hloop hrequests
  rw [assemble_eq_of_supplier _ hfragments] at hmoved
  rw [assemble_eq_of_supplier _ hfault] at hfailed
  exact ⟨hdirectory, hmain, hloop, hrequests, hmoved, hfailed⟩

end Provider

end ShaderInterface
