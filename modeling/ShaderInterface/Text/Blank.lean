import ShaderInterface.Text.Ranges

/-!
# Blank Characters

The characters with the Unicode property White_Space. They separate words, surround directives and
are dropped at the ends of values.
-/

namespace ShaderInterface.Text

/-- The blank characters. -/
def blankRanges : List (Nat × Nat) :=
  [(0x9, 0xD), (0x20, 0x20), (0x85, 0x85), (0xA0, 0xA0), (0x1680, 0x1680), (0x2000, 0x200A),
   (0x2028, 0x2029), (0x202F, 0x202F), (0x205F, 0x205F), (0x3000, 0x3000)]

/-- Whether a character is blank. -/
def isBlank (c : Char) : Bool :=
  inRanges blankRanges c

end ShaderInterface.Text
