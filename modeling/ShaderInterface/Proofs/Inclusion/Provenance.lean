import ShaderInterface.Preprocessing.Source
import ShaderInterface.Proofs.Inclusion.Supplier
import ShaderInterface.Proofs.Text.Lines

/-!
# Where the Lines of a Shader Come From

The lines of the fragments of a shader, each with the file and the number that it is given, are those
of a walk through the files that knows neither segments nor fragments: line by line, and into every
file that an include line asks for.

A line is cut off twice: when its file is cut at the include lines, and when the fragment is read. A
carriage return that the first cut has left at its end is lost in the second one.

## Main definitions

* `Listed`: the listing of some numbered lines of a file.
* `ListedFile`: the listing of a whole file.

## Main results

* `segmentLines_code_cases`, `segmentLines_request_cases`: what lines a segment was cut from.
* `listed_of_walk`: the lines of the fragments are the listing of the lines.
* `listedFile_iff_of_assemble`: so they are for a whole shader, and no fragment is empty.
-/

namespace ShaderInterface

open ShaderInterface.Text

/-! ## Segments and their lines -/

namespace Inclusion

variable {offset : Nat} {lines : List Text} {rest : List Segment}

theorem eq_nil_of_segmentLines (h : segmentLines offset lines = []) : lines = [] := by
  rcases lines with - | ⟨line, behind⟩
  · rfl
  · rw [segmentLines] at h
    split at h <;> cases h

/-- An include line stands for itself. -/
theorem segmentLines_request_cases {number : Nat} {path : Text}
    (h : segmentLines offset lines = .request number path :: rest) :
    ∃ line behind, lines = line :: behind ∧ number = offset + 1 ∧ request? line = some path ∧
      segmentLines (offset + 1) behind = rest := by
  rcases lines with - | ⟨line, behind⟩
  · cases h
  · refine ⟨line, behind, rfl, ?_⟩
    rw [segmentLines] at h
    split at h
    next hline =>
      cases h
      exact ⟨rfl, hline, rfl⟩
    all_goals cases h

/-- The lines of a segment stand at the beginning, at least one of them, and ask for nothing. -/
theorem segmentLines_code_cases {start : Nat} {kept : List Text}
    (h : segmentLines offset lines = .code start kept :: rest) :
    ∃ behind, lines = kept ++ behind ∧ start = offset ∧ kept ≠ [] ∧
      (∀ line ∈ kept, request? line = none) ∧
      segmentLines (offset + kept.length) behind = rest := by
  induction lines generalizing offset start kept rest with
  | nil => cases h
  | cons line behind ih =>
    rw [segmentLines] at h
    -- The first line is put in front of the segment behind it, or is a segment of its own.
    split at h
    next => cases h
    next next more following hline hbehind =>
      cases h
      obtain ⟨last, rfl, -, -, hmore, hlast⟩ := ih hbehind
      refine ⟨last, rfl, rfl, List.cons_ne_nil line more, ?_, ?_⟩
      · rw [List.forall_mem_cons]
        exact ⟨hline, hmore⟩
      · rwa [List.length_cons, Nat.add_comm more.length, ← Nat.add_assoc]
    next hline hcode =>
      cases h
      refine ⟨behind, rfl, rfl, List.cons_ne_nil line [], ?_, rfl⟩
      intro other hother
      rwa [List.mem_singleton.1 hother]

/-- What the segments of a file ask for is asked for by one of its lines. -/
theorem exists_line_of_mem_segmentLines {parts : List Segment} {number : Nat} {path : Text}
    (hparts : segmentLines offset lines = parts) (h : .request number path ∈ parts) :
    ∃ line ∈ lines, request? line = some path := by
  induction parts generalizing offset lines with
  | nil => cases h
  | cons segment rest ih =>
    cases segment with
    | code start kept =>
      obtain ⟨behind, rfl, -, -, -, hbehind⟩ := segmentLines_code_cases hparts
      obtain ⟨line, hline, hrequest⟩ := ih hbehind (List.mem_of_ne_of_mem (by simp) h)
      exact ⟨line, List.mem_append_right kept hline, hrequest⟩
    | request first asked =>
      obtain ⟨line, behind, rfl, -, hline, hbehind⟩ := segmentLines_request_cases hparts
      rcases List.mem_cons.1 h with hfirst | hrest
      · cases hfirst
        exact ⟨line, List.mem_cons_self .., hline⟩
      · obtain ⟨other, hother, hrequest⟩ := ih hbehind hrest
        exact ⟨other, List.mem_cons_of_mem line hother, hrequest⟩

end Inclusion

open ShaderInterface.Inclusion ShaderInterface.Preprocessing

/-! ## Listings -/

section

variable (resolve : (includer request : Text) → Except Text Text)
  (read : (path : Text) → Except Text Text)

/-- The listing of some numbered lines of a file. A line is listed with its place, and an include line
gives way to the listing of all lines of the file that it asks for. -/
inductive Listed : (file : Text) → (numbered : List (Text × Nat)) →
    (listing : List (Site × Text)) → Prop where
  | nil {file} : Listed file [] []
  | keep {file line number rest listing} : request? line = none → Listed file rest listing →
      Listed file ((line, number) :: rest) ((⟨file, number⟩, dropReturn line) :: listing)
  | inside {file line number rest request path text included listing} :
      request? line = some request → resolve file request = .ok path → read path = .ok text →
      Listed path ((lines text).zipIdx 1) included → Listed file rest listing →
      Listed file ((line, number) :: rest) (included ++ listing)

/-- The listing of a file. -/
def ListedFile (file : Text) (listing : List (Site × Text)) : Prop :=
  ∃ text, read file = .ok text ∧ Listed resolve read file ((lines text).zipIdx 1) listing

end

variable {resolve : (includer request : Text) → Except Text Text}
  {read : (path : Text) → Except Text Text} {file : Text}

/-- Lines have one listing at most. -/
theorem Listed.unique {numbered : List (Text × Nat)} {first second : List (Site × Text)}
    (hfirst : Listed resolve read file numbered first)
    (hsecond : Listed resolve read file numbered second) : first = second := by
  -- What the first line asks for decides by which rule the second listing was made.
  induction hfirst generalizing second with
  | nil =>
    cases hsecond
    rfl
  | keep hline _ ih =>
    cases hsecond with
    | keep _ hrest => rw [ih hrest]
    | inside hline' => cases hline.symm.trans hline'
  | inside hline hresolve hread _ _ ihincluded ih =>
    cases hsecond with
    | keep hline' => cases hline.symm.trans hline'
    | inside hline' hresolve' hread' hincluded hrest =>
      obtain rfl := Option.some_inj.1 (hline.symm.trans hline')
      obtain rfl := Except.ok.inj (hresolve.symm.trans hresolve')
      obtain rfl := Except.ok.inj (hread.symm.trans hread')
      rw [ihincluded hincluded, ih hrest]

/-- Lines that ask for nothing are listed one by one. -/
theorem Listed.append {kept : List Text} {rest : List (Text × Nat)} {listing : List (Site × Text)}
    (h : ∀ line ∈ kept, request? line = none) (number : Nat)
    (hrest : Listed resolve read file rest listing) :
    Listed resolve read file (kept.zipIdx number ++ rest)
      ((kept.zipIdx number).map (fun (line, n) => (⟨file, n⟩, dropReturn line)) ++ listing) := by
  induction kept generalizing number with
  | nil => exact hrest
  | cons line kept ih =>
    rw [List.forall_mem_cons] at h
    exact .keep h.1 (ih h.2 (number + 1))

/-- The lines of a fragment that was made from lines are these lines. -/
theorem numberedLines_cons {kept : List Text} (h : ∀ line ∈ kept, '\n' ∉ line) (offset : Nat)
    (fragments : List Fragment) :
    numberedLines ({ source := unlines kept, file, offset } :: fragments) =
      (kept.zipIdx (offset + 1)).map (fun (line, n) => (⟨file, n⟩, dropReturn line)) ++
        numberedLines fragments := by
  rw [numberedLines, List.flatMap_cons]
  congr 1
  rw [Fragment.numberedLines, lines_unlines h, List.mapIdx_eq_zipIdx_map, List.zipIdx_map,
    @List.zipIdx_eq_map_add _ kept (offset + 1)]
  simp only [List.map_map]
  rfl

/-! ## The walk -/

/-- The lines of the fragments of a walk are the listing of the lines that were walked through, and
none of the fragments is empty. -/
theorem listed_of_walk {chain : List Text} {parts : List Segment} {world last : Unit}
    {report : Report (List Fragment)} {fragments : List Fragment} {offset : Nat}
    {walked : List Text}
    (h : (Supplier.ofFunctions resolve read).Walk chain file parts world report last)
    (hok : report.outcome = .ok fragments) (hparts : segmentLines offset walked = parts)
    (hfeed : ∀ line ∈ walked, '\n' ∉ line) :
    Listed resolve read file (walked.zipIdx (offset + 1)) (numberedLines fragments) ∧
      ∀ fragment ∈ fragments, fragment.source ≠ [] := by
  -- A step of the walk takes the lines from which the first segment was cut.
  induction h generalizing fragments offset walked with
  | nil =>
    obtain rfl := eq_nil_of_segmentLines hparts
    cases hok
    exact ⟨.nil, by simp⟩
  | @code _ file _ kept _ _ following _ _ ih =>
    obtain ⟨behind, rfl, rfl, hne, hplain, hbehind⟩ := segmentLines_code_cases hparts
    rw [List.forall_mem_append] at hfeed
    rw [Report.outcome_bind] at hok
    obtain ⟨found, hfound, hfragments⟩ := result_of_bind hok
    cases hfragments
    obtain ⟨hlisted, hsources⟩ := ih hfound hbehind hfeed.2
    constructor
    · rw [numberedLines_cons hfeed.1, List.zipIdx_append]
      refine Listed.append hplain _ ?_
      rwa [Nat.add_right_comm]
    · rw [List.forall_mem_cons]
      exact ⟨unlines_ne_nil hne, hsources⟩
  | refused => cases hok
  | @failed _ _ _ _ _ _ opened _ path text included _ _ _ hopened _ hincluded =>
    rw [Report.outcome_bind, hopened] at hok
    cases hincluded.symm.trans hok
  | @opened _ file _ _ _ _ opened _ path text included _ inner following _ hfollow hopened _
      hincluded _ ihinside ih =>
    obtain ⟨line, behind, rfl, rfl, hline, hbehind⟩ := segmentLines_request_cases hparts
    obtain ⟨-, hfeed⟩ := List.forall_mem_cons.1 hfeed
    obtain ⟨hresolve, hread⟩ := Supplier.of_follow (by rw [hfollow]; exact hopened)
    -- The fragments of the file come first, which is where its listing stands.
    simp only [Report.outcome_bind] at hok
    obtain ⟨-, -, hok⟩ := result_of_bind hok
    obtain ⟨found, hfound, hok⟩ := result_of_bind hok
    obtain rfl := Except.ok.inj (hincluded.symm.trans hfound)
    obtain ⟨behind', hfollowing, hfragments⟩ := result_of_bind hok
    cases hfragments
    obtain ⟨hinside, hinner⟩ := ihinside hincluded rfl fun _ => lineFeed_notMem
    obtain ⟨hlisted, hsources⟩ := ih hfollowing hbehind hfeed
    constructor
    · rw [numberedLines, List.flatMap_append]
      exact .inside hline hresolve hread hinside hlisted
    · rw [List.forall_mem_append]
      exact ⟨hinner, hsources⟩

/-- The lines of the fragments of a shader, each with the file and the number that it is given, are the
listing of the shader and of no other file. This holds for all functions that resolve paths and read
files, whenever the shader is assembled with them. No fragment is empty. -/
theorem listedFile_iff_of_assemble {entry : Text} {depth : Nat}
    {report : Report (List Fragment)} {fragments : List Fragment}
    (h : (Supplier.ofFunctions resolve read).assemble depth entry () = some (report, ()))
    (hok : report.outcome = .ok fragments) :
    (∀ listing, ListedFile resolve read entry listing ↔ listing = numberedLines fragments) ∧
      ∀ fragment ∈ fragments, fragment.source ≠ [] := by
  rcases Supplier.assemble_cases h with
    ⟨opened, fault, -, -, rfl⟩ | ⟨opened, next, text, included, hopen, hopened, hwalk, rfl⟩
  · cases hok
  · have hread : read entry = .ok text := Supplier.of_openFile (by rw [hopen]; exact hopened)
    rw [Report.outcome_bind, hopened] at hok
    obtain ⟨hlisted, hsources⟩ := listed_of_walk hwalk hok rfl fun _ => lineFeed_notMem
    refine ⟨fun listing => ⟨?_, ?_⟩, hsources⟩
    · rintro ⟨text', hread', hlisted'⟩
      obtain rfl := Except.ok.inj (hread.symm.trans hread')
      exact hlisted'.unique hlisted
    · rintro rfl
      exact ⟨text, hread, hlisted⟩

/-! ## An example -/

/-- A shader that includes a part in its first and in its last line. -/
def exampleMain : Text := "#include \"part\"\r\nx\r\r\n\n#include <part>".toList

/-- The part that the shader includes. -/
def examplePart : Text := "y\r\n".toList

/-- The texts of the shader and of its part. -/
def exampleRead (path : Text) : Except Text Text :=
  .ok (if path = "main".toList then exampleMain else examplePart)

/-- The supplier of the shader and of its part. -/
def exampleSupplier : Supplier Unit :=
  .ofFunctions (fun _ request => .ok request) exampleRead

/-- The fragments of the shader. -/
def exampleFragments : List Fragment :=
  [⟨"y\n".toList, "part".toList, 0⟩, ⟨"x\r\n\n".toList, "main".toList, 1⟩,
    ⟨"y\n".toList, "part".toList, 0⟩]

theorem assemble_exampleSupplier :
    exampleSupplier.assemble 2 "main".toList () = some (pure exampleFragments, ()) := rfl

/-- The lines of the example keep their places, and lose what is left of their endings. -/
theorem listedFile_exampleMain :
    ListedFile (fun _ request => .ok request) exampleRead "main".toList
      [(⟨"part".toList, 1⟩, "y".toList), (⟨"main".toList, 2⟩, "x".toList),
        (⟨"main".toList, 3⟩, []), (⟨"part".toList, 1⟩, "y".toList)] :=
  ((listedFile_iff_of_assemble assemble_exampleSupplier rfl).1 _).2 (by decide)

end ShaderInterface
