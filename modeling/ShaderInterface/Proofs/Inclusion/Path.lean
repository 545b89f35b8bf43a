import Mathlib.Tactic.Common
import ShaderInterface.Inclusion.Path
import ShaderInterface.Proofs.Text.Cuts

/-!
# Proper Paths

A path is proper if every part of it names something: it neither starts nor ends with a slash, and no part is
empty or a single dot. A proper path is determined by its parts, and following a path from a directory puts
the parts of one behind those of the other. Double dots are parts like all others, as they are never
resolved.

## Main definitions

* `IsProper`: every part of a path names something.
* `under`: a path that is followed from a directory.

## Main results

* `splitOn_beside`: the parts of the path of a file that is looked up beside another one.
* `beside_under`: where both are moved into a directory, the file is found in this directory.
-/

namespace ShaderInterface.Path

variable {path other directory request : Text}

/-- Every part of a path names something. -/
def IsProper (path : Text) : Prop :=
  ∀ part ∈ path.splitOn '/', isIdle part = false

instance (path : Text) : Decidable (IsProper path) :=
  inferInstanceAs (Decidable (∀ part ∈ path.splitOn '/', isIdle part = false))

/-- A path that is followed from a directory. -/
def under (directory path : Text) : Text :=
  directory ++ '/' :: path

/-! ## Parts -/

/-- A path is determined by its parts. -/
theorem eq_of_splitOn_eq (h : path.splitOn '/' = other.splitOn '/') : path = other := by
  have hjoined (text : Text) : ['/'].intercalate (text.splitOn '/') = text := List.intercalate_splitOn '/'
  rw [← hjoined path, h, hjoined]

/-- The parts of a path that is followed from a directory. -/
theorem splitOn_under (directory path : Text) :
    (under directory path).splitOn '/' = directory.splitOn '/' ++ path.splitOn '/' :=
  List.splitOn_append_cons_self ..

/-- Different paths stay different in a directory. -/
theorem under_injective (directory : Text) : Function.Injective (under directory) := by
  intro path other h
  exact (List.cons.inj (List.append_cancel_left h)).2

/-! ## Proper paths -/

/-- A path in a directory is proper if the directory and the path are. -/
theorem isProper_under (hdirectory : IsProper directory) (hpath : IsProper path) :
    IsProper (under directory path) := by
  rw [IsProper, splitOn_under]
  exact List.forall_mem_append.2 ⟨hdirectory, hpath⟩

/-- A proper path does not start with a slash. -/
theorem IsProper.isAbsolute_eq_false (h : IsProper path) : isAbsolute path = false := by
  rcases path with - | ⟨c, rest⟩
  · rfl
  · refine decide_eq_false fun hhead => ?_
    obtain rfl : c = '/' := Option.some.inj hhead
    -- There would be an empty part in front of the slash.
    have hparts : List.splitOn '/' ('/' :: rest) = [] :: rest.splitOn '/' :=
      List.splitOn_append_cons_self [] rest
    cases h [] (hparts ▸ List.mem_cons_self ..)

/-- A proper path does not end with a slash. -/
theorem IsProper.getLast?_ne (h : IsProper path) : path.getLast? ≠ some '/' := by
  intro hlast
  obtain ⟨front, rfl⟩ := List.getLast?_eq_some_iff.1 hlast
  -- There would be an empty part behind the slash.
  have hparts : (front ++ ['/']).splitOn '/' = front.splitOn '/' ++ [[]] :=
    List.splitOn_append_cons_self front []
  cases h [] (hparts ▸ List.mem_append_right _ (List.mem_singleton_self _))

theorem IsProper.ne_nil (h : IsProper path) : path ≠ [] := by
  rintro rfl
  cases h [] (List.mem_singleton_self _)

/-- A proper path has no beginning of its own. -/
theorem IsProper.splitStart_eq (h : IsProper path) : splitStart path = ([], path) := by
  unfold splitStart
  split
  next rest => cases h.isAbsolute_eq_false
  next => cases h ['.'] (List.mem_singleton_self _)
  next rest =>
    have hparts : List.splitOn '/' ('.' :: '/' :: rest) = ['.'] :: rest.splitOn '/' :=
      List.splitOn_append_cons_self ['.'] rest
    cases h ['.'] (hparts ▸ List.mem_cons_self ..)
  next => rfl

theorem reverse_dropWhile_isIdle {parts : List Text} (h : ∀ part ∈ parts, isIdle part = false) :
    (parts.reverse.dropWhile isIdle).reverse = parts := by
  have hkept : parts.reverse.dropWhile isIdle = parts.reverse := by
    rcases hparts : parts.reverse with - | ⟨last, front⟩
    · rfl
    · refine List.dropWhile_cons_of_neg (Bool.eq_false_iff.1 (h last ?_))
      exact List.mem_reverse.1 (hparts ▸ List.mem_cons_self ..)
  rw [hkept, List.reverse_reverse]

/-- The directory of a proper path has all parts of the path but the last one. -/
theorem IsProper.parent_eq (h : IsProper path) :
    parent path = ['/'].intercalate (path.splitOn '/').dropLast := by
  have hparts : parts path = path.splitOn '/' := reverse_dropWhile_isIdle h
  have hfront : ∀ part ∈ (path.splitOn '/').dropLast, isIdle part = false := fun part hpart =>
    h part (List.dropLast_subset _ hpart)
  rw [parent, h.splitStart_eq]
  simp only [hparts]
  split
  next hnone => exact absurd hnone (List.splitOn_ne_nil '/' path)
  next => rw [reverse_dropWhile_isIdle hfront, List.nil_append]

/-- A path is followed from a proper directory by writing it behind the directory. -/
theorem join_of_isProper (hdirectory : IsProper directory) (hrequest : IsProper request) :
    join directory request = under directory request := by
  rw [join, hrequest.isAbsolute_eq_false, List.isEmpty_eq_false_iff.2 hdirectory.ne_nil,
    decide_eq_false hdirectory.getLast?_ne]
  rfl

/-- The parts of the path of a file that is looked up beside another one are those of the directory and
those that are asked for. -/
theorem splitOn_beside (hpath : IsProper path) (hrequest : IsProper request) :
    (beside path request).splitOn '/' = (path.splitOn '/').dropLast ++ request.splitOn '/' := by
  rw [beside, hpath.parent_eq]
  by_cases hnone : (path.splitOn '/').dropLast = []
  · -- Beside a path of a single part stands what is asked for.
    rw [hnone, join, hrequest.isAbsolute_eq_false]
    rfl
  · have hparts : (['/'].intercalate (path.splitOn '/').dropLast).splitOn '/' =
        (path.splitOn '/').dropLast :=
      List.splitOn_intercalate '/'
        (fun part hpart => Text.notMem_of_mem_splitOn (List.dropLast_subset _ hpart)) hnone
    have hdirectory : IsProper (['/'].intercalate (path.splitOn '/').dropLast) := by
      rw [IsProper, hparts]
      exact fun part hpart => hpath part (List.dropLast_subset _ hpart)
    rw [join_of_isProper hdirectory hrequest, splitOn_under, hparts]

theorem isProper_beside (hpath : IsProper path) (hrequest : IsProper request) :
    IsProper (beside path request) := by
  rw [IsProper, splitOn_beside hpath hrequest]
  exact List.forall_mem_append.2
    ⟨fun part hpart => hpath part (List.dropLast_subset _ hpart), hrequest⟩

/-- Where a file and the directory that it is in are moved, a file that is looked up beside it is found in
the place to which it was moved. -/
theorem beside_under (hdirectory : IsProper directory) (hpath : IsProper path)
    (hrequest : IsProper request) :
    beside (under directory path) request = under directory (beside path request) := by
  apply eq_of_splitOn_eq
  rw [splitOn_beside (isProper_under hdirectory hpath) hrequest, splitOn_under, splitOn_under,
    splitOn_beside hpath hrequest, List.dropLast_append_of_ne_nil (List.splitOn_ne_nil '/' path),
    List.append_assoc]

end ShaderInterface.Path
