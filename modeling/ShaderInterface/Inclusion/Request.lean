import ShaderInterface.Text.Basic

/-!
# Include Lines

A line that starts with `#include` and a path, between double quotes or between angle brackets,
asks for another file in its place. Blanks may surround the number sign and the path; anything may
follow.
-/

namespace ShaderInterface.Inclusion

open ShaderInterface.Text

/-- The text up to a closing character, which must come and must not come first. -/
def enclosed? (close : Char) (text : Text) : Option Text :=
  match text.cut? close with
  | some ([], _) => none
  | some (path, _) => some path
  | none => none

/-- The path between the delimiters at the beginning of a text. -/
def delimited? : Text → Option Text
  | '"' :: rest => enclosed? '"' rest
  | '<' :: rest => enclosed? '>' rest
  | _ => none

/-- The path that a line asks for, if it is an include line whose path is not blank. -/
def request? (line : Text) : Option Text := do
  let directive ← ['#'].isPrefixOf? (trimStart line)
  let operand ← "include".toList.isPrefixOf? (trimStart directive)
  let path ← delimited? (trimStart operand)
  if path.trim.isEmpty then none else some path.trim

end ShaderInterface.Inclusion
