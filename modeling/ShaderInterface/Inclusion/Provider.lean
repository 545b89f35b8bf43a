import ShaderInterface.Inclusion.Path

/-!
# Include Providers

A provider resolves the paths that include lines ask for and reads the files they lead to. A
shader can be assembled from any provider that has finitely many files to offer: an endless chain
of includes would have to read one of them again.
-/

namespace ShaderInterface

/-- Where the files of a shader come from. -/
structure Provider where
  /-- The path of the file that an includer asks for, or the reason why there is none. -/
  resolve : (includer request : Text) → Except Text Text
  /-- The text of a file, or the reason why it cannot be read. -/
  read : (path : Text) → Except Text Text
  /-- Only finitely many paths can be read. -/
  finite : ∃ paths : List Text, ∀ path text, read path = .ok text → path ∈ paths

namespace Provider

/-- The provider of the files in a list. -/
def ofFiles (resolve : (includer request : Text) → Except Text Text) (missing : Text → Text)
    (files : List (Text × Text)) : Provider where
  resolve := resolve
  read path :=
    match files.lookup path with
    | some text => .ok text
    | none => .error (missing path)
  finite := by
    refine ⟨files.map Prod.fst, fun path text h => ?_⟩
    cases found : files.lookup path with
    | none => simp [found] at h
    | some text =>
      obtain ⟨before, after, rfl, _⟩ := List.lookup_eq_some_iff.1 found
      simp

/-- How many paths that can be read are not yet part of a chain of open files. -/
noncomputable def unopened (provider : Provider) (chain : List Text) : Nat :=
  provider.finite.choose.countP fun path => path ∉ chain

/-- Opening another file that can be read leaves fewer of them. -/
theorem unopened_cons_lt {provider : Provider} {chain : List Text} {path text : Text}
    (hread : provider.read path = .ok text) (hnew : path ∉ chain) :
    provider.unopened (path :: chain) < provider.unopened chain := by
  have hmem := provider.finite.choose_spec path text hread
  unfold unopened
  obtain ⟨before, after, heq⟩ := List.append_of_mem hmem
  rw [heq]
  -- Apart from the path itself, no path is counted that was not counted before.
  have shrink (paths : List Text) : paths.countP (fun p => p ∉ path :: chain) ≤
      paths.countP (fun p => p ∉ chain) :=
    List.countP_mono_left fun p _ => by simp
  have hbefore := shrink before
  have hafter := shrink after
  have hdropped : decide (path ∉ path :: chain) = false := by simp
  have hcounted : decide (path ∉ chain) = true := by simpa using hnew
  simp only [List.countP_append, List.countP_cons, hdropped, hcounted]
  simp only [Bool.false_eq_true, ↓reduceIte, Nat.add_zero]
  omega

end Provider

end ShaderInterface
