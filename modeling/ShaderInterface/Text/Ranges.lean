/-!
# Character Ranges

Character classes are given as lists of closed ranges of code points.
-/

namespace ShaderInterface.Text

/-- Whether the code point of a character lies in one of the ranges. -/
def inRanges (ranges : List (Nat × Nat)) (c : Char) : Bool :=
  ranges.any fun range => range.1 ≤ c.toNat && c.toNat ≤ range.2

end ShaderInterface.Text
