import ShaderInterface.Inclusion.Fragment
import ShaderInterface.Preprocessing.State
import ShaderInterface.Preprocessing.WholeWord

/-!
# Preprocessed Source

The fragments of a shader are preprocessed as one sequence of lines: definitions, continued lines
and conditional groups reach across their borders. All groups must be closed in the end. Then the
values of the macros that are defined by now are put in the place of their names in the lines that
were kept.
-/

namespace ShaderInterface.Preprocessing

open ShaderInterface.Text

/-- A preprocessed shader. -/
structure Source where
  /-- The text that is left. -/
  text : Text
  /-- The macros that are defined in the end. -/
  table : Macro.Table
  deriving DecidableEq

/-- The lines of fragments, each with the place that it comes from. -/
def numberedLines (fragments : List Fragment) : List (Site × Text) :=
  fragments.flatMap fun fragment =>
    fragment.numberedLines.map fun (number, line) => (⟨fragment.file, number⟩, line)

/-- Fails if a group is open. -/
def requireClosed : List Group → Report Unit
  | [] => return ()
  | group :: _ => do
    Report.notice (.failure (.unterminatedConditional group.opener))
    Report.raise (.unterminatedConditional group.opener)

/-- Preprocesses fragments, starting from a table. -/
def preprocess (table : Macro.Table) (fragments : List Fragment) : Report Source := do
  let (kept, state) ← (State.initial table).run (numberedLines fragments)
  requireClosed state.groups
  return { text := replaceWords state.table (unlines kept), table := state.table }

end ShaderInterface.Preprocessing
