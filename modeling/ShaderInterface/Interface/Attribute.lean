import ShaderInterface.Arithmetic.Evaluation
import ShaderInterface.Number.Truncation
import ShaderInterface.Report

/-!
# Attributes

The attributes of a declaration are divided by commas. Those with an equals sign give an arithmetic
value to a key; the others say nothing about the interface.
-/

namespace ShaderInterface.Interface

open ShaderInterface.Text

/-- The keys of a list of attributes with their values, in order. -/
def attributePairs (attributes : Text) : List (Text × Text) :=
  (attributes.splitOn ',').filterMap fun item =>
    (cut? '=' item).map fun (key, value) => (trim key, trim value)

/-- The number that an attribute or an array size stands for. -/
def layoutValue (table : Macro.Table) (range : Number.IntRange) (text : Text) : Report Int :=
  match Arithmetic.evaluate table text with
  | .ok x => return Number.truncate range x
  | .error cause => do
    Report.notice (.failure (.invalidLayoutValue text cause))
    Report.raise (.invalidLayoutValue text cause)

end ShaderInterface.Interface
