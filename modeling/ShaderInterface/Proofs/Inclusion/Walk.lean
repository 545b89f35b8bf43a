import ShaderInterface.Inclusion.Assembly
import ShaderInterface.Proofs.Inclusion.Inlining

/-!
# The Walk Line by Line

Assembling a shader walks through segments, in which lines are gathered, and yields fragments. As far
as the text and the faults go it might walk through single lines. Every statement about the walk is
then an induction with four cases: no line is left, a line is kept, a line is refused, and a line opens
a file, whose lines come before the ones behind it.

## Main definitions

* `Provider.walk`: the text of the fragments of lines.

## Main results

* `Provider.follow_eq_error_iff`, `Provider.follow_eq_ok_iff`: what an include line does.
* `Provider.walk_induction`: the induction along the walk.
-/

namespace ShaderInterface.Provider

open ShaderInterface.Text ShaderInterface.Inclusion

variable {provider : Provider} {chain : List Text} {site : Site}
  {file line request path text : Text} {rest : List Text} {offset : Nat} {fault : Fault}

/-! ## A single include line -/

/-- An include line fails exactly when it is refused. -/
theorem follow_eq_error_iff :
    provider.follow chain site request = .error fault ↔
      provider.Refused chain site request fault := by
  -- The three reasons to refuse a line are the three places in which a fault arises.
  constructor
  · intro h
    unfold follow at h
    split at h
    next hresolve =>
      cases h
      exact .unresolved hresolve
    next path hresolve =>
      by_cases hopen : path ∈ chain
      · rw [openFile_of_mem hopen] at h
        cases h
        exact .recursive hresolve hopen
      · rw [openFile_of_not_mem hopen] at h
        cases hread : provider.read path with
        | error cause =>
          rw [hread] at h
          cases h
          exact .unreadable hresolve hopen hread
        | ok text =>
          rw [hread] at h
          cases h
  · rintro (hresolve | ⟨hresolve, hopen⟩ | ⟨hresolve, hopen, hread⟩)
    · simp only [follow, hresolve]
    · simp only [follow, hresolve, openFile_of_mem hopen, Except.map]
    · simp only [follow, hresolve, openFile_of_not_mem hopen, hread, Except.map]

/-- An include line succeeds exactly when it opens a file. -/
theorem follow_eq_ok_iff :
    provider.follow chain site request = .ok (path, text) ↔
      provider.Opened chain site request path text := by
  constructor
  · intro h
    refine ⟨?_, (of_follow h).1, (of_follow h).2⟩
    unfold follow at h
    split at h
    · cases h
    next resolved hresolve =>
      cases hopen : provider.openFile chain site resolved with
      | error fault =>
        rw [hopen] at h
        cases h
      | ok found =>
        rw [hopen] at h
        cases h
        exact hresolve
  · rintro ⟨hresolve, hnew, hread⟩
    simp only [follow, hresolve, openFile_of_not_mem hnew, hread, Except.map]

/-! ## Lines instead of segments -/

section

variable (provider chain file)

/-- The text of the fragments that some segments of a file give. -/
def segmentText (segments : List Segment) : Except Fault Text :=
  (provider.assembleSegments chain file segments).map (List.flatMap Fragment.source)

/-- The text of the lines that follow the first `offset` lines of a file, with the files that they ask
for in their places. -/
def walk (offset : Nat) (lines : List Text) : Except Fault Text :=
  provider.segmentText chain file (segmentLines offset lines)

end

theorem segmentText_code (lines : List Text) (segments : List Segment) :
    provider.segmentText chain file (.code offset lines :: segments) =
      (do
        let following ← provider.segmentText chain file segments
        return unlines lines ++ following) := by
  unfold segmentText
  rw [assembleSegments]
  cases provider.assembleSegments chain file segments <;> rfl

/-- The fragments of the file that a line asks for come before those of the segments behind the line. -/
theorem assembleSegments_request {number : Nat} (segments : List Segment) :
    provider.assembleSegments chain file (.request number request :: segments) =
      (do
        let (path, text) ← provider.follow chain ⟨file, number⟩ request
        let included ← provider.assembleSegments (path :: chain) path (Inclusion.segments text)
        let following ← provider.assembleSegments chain file segments
        return included ++ following) := by
  rw [assembleSegments]
  split
  next hfollow =>
    rw [hfollow]
    rfl
  next path text hfollow =>
    rw [hfollow]
    rfl

theorem segmentText_request {number : Nat} (segments : List Segment) :
    provider.segmentText chain file (.request number request :: segments) =
      (do
        let (path, text) ← provider.follow chain ⟨file, number⟩ request
        let included ← provider.segmentText (path :: chain) path (Inclusion.segments text)
        let following ← provider.segmentText chain file segments
        return included ++ following) := by
  unfold segmentText
  rw [assembleSegments_request]
  -- Fragments are appended here and their texts there, which is the same.
  cases provider.follow chain ⟨file, number⟩ request with
  | error fault => rfl
  | ok found =>
    simp only [bind, Except.bind]
    cases provider.assembleSegments (found.1 :: chain) found.1 (Inclusion.segments found.2) with
    | error fault => rfl
    | ok included =>
      cases provider.assembleSegments chain file segments with
      | error fault => rfl
      | ok following => simp [Except.map, pure, Except.pure]

theorem walk_nil : provider.walk chain file offset [] = .ok [] := by
  rw [walk, segmentLines, segmentText, assembleSegments]
  rfl

/-- A line that asks for nothing is kept, whatever fragment it belongs to. -/
theorem walk_keep (h : request? line = none) :
    provider.walk chain file offset (line :: rest) =
      (do
        let following ← provider.walk chain file (offset + 1) rest
        return line ++ '\n' :: following) := by
  unfold walk
  rw [segmentLines, h]
  -- The line starts a segment, unless code stands behind it, to which it is then added.
  rcases segmentLines (offset + 1) rest with - | ⟨⟨start, lines⟩ | ⟨number, request⟩, segments⟩
  · simp [segmentText_code, unlines]
  · simp only [segmentText_code]
    cases provider.segmentText chain file segments with
    | error fault => rfl
    | ok text => simp [bind, Except.bind, pure, Except.pure, unlines]
  · simp [segmentText_code, unlines]

theorem walk_request (h : request? line = some request) :
    provider.walk chain file offset (line :: rest) =
      (do
        let (path, text) ← provider.follow chain ⟨file, offset + 1⟩ request
        let included ← provider.walk (path :: chain) path 0 (lines text)
        let following ← provider.walk chain file (offset + 1) rest
        return included ++ following) := by
  unfold walk
  rw [segmentLines, h]
  exact segmentText_request _

/-- A line that is refused ends the walk. -/
theorem walk_refused (h : request? line = some request)
    (hrefused : provider.Refused chain ⟨file, offset + 1⟩ request fault) :
    provider.walk chain file offset (line :: rest) = .error fault := by
  rw [walk_request h, follow_eq_error_iff.2 hrefused]
  rfl

/-- A line that opens a file gives way to the lines of this file. -/
theorem walk_opened (h : request? line = some request)
    (hopened : provider.Opened chain ⟨file, offset + 1⟩ request path text) :
    provider.walk chain file offset (line :: rest) =
      (do
        let included ← provider.walk (path :: chain) path 0 (lines text)
        let following ← provider.walk chain file (offset + 1) rest
        return included ++ following) := by
  rw [walk_request h, follow_eq_ok_iff.2 hopened]
  rfl

variable (provider) in
/-- The induction along the walk. -/
theorem walk_induction {motive : List Text → Text → Nat → List Text → Prop}
    (nil : ∀ chain file offset, motive chain file offset [])
    (keep : ∀ chain file offset line rest, request? line = none →
      motive chain file (offset + 1) rest → motive chain file offset (line :: rest))
    (refused : ∀ chain file offset line rest request fault, request? line = some request →
      provider.Refused chain ⟨file, offset + 1⟩ request fault →
      motive chain file offset (line :: rest))
    (opened : ∀ chain file offset line rest request path text, request? line = some request →
      provider.Opened chain ⟨file, offset + 1⟩ request path text →
      motive (path :: chain) path 0 (lines text) → motive chain file (offset + 1) rest →
      motive chain file offset (line :: rest))
    (chain : List Text) (file : Text) (offset : Nat) :
    (lines : List Text) → motive chain file offset lines
  | [] => nil chain file offset
  | line :: rest => by
    -- The lines of the file at hand become fewer, and a file that is opened was not open before.
    have behind := walk_induction nil keep refused opened chain file (offset + 1) rest
    cases hline : request? line with
    | none => exact keep _ _ _ _ _ hline behind
    | some request =>
      cases hfollow : provider.follow chain ⟨file, offset + 1⟩ request with
      | error fault => exact refused _ _ _ _ _ _ _ hline (follow_eq_error_iff.1 hfollow)
      | ok found =>
        obtain ⟨path, text⟩ := found
        have hopened := follow_eq_ok_iff.1 hfollow
        exact opened _ _ _ _ _ _ _ _ hline hopened
          (walk_induction nil keep refused opened (path :: chain) path 0 (Text.lines text)) behind
termination_by lines => (provider.unopened chain, lines.length)
decreasing_by
  · exact .right _ (Nat.lt_succ_self _)
  · exact .left _ _ (unopened_cons_lt hopened.read hopened.notMem)

end ShaderInterface.Provider
