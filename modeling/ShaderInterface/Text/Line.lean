import ShaderInterface.Text.Basic

/-!
# Lines

A line feed ends a line, and a carriage return just before it belongs to the ending. A last line
without an ending counts when it is not empty, and keeps its carriage return.
-/

namespace ShaderInterface.Text

/-- The lines of a text, without their endings. -/
def lines : Text → List Text
  | [] => []
  | '\n' :: rest => [] :: lines rest
  | '\r' :: '\n' :: rest => [] :: lines rest
  | c :: rest =>
    match lines rest with
    | [] => [[c]]
    | line :: more => (c :: line) :: more

/-- The text in which every given line is ended by a line feed. -/
def unlines (lines : List Text) : Text :=
  lines.flatMap (· ++ ['\n'])

end ShaderInterface.Text
