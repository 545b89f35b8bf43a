import ShaderInterface.Text.Basic

/-!
# Comments

A line comment runs from `//` to the end of the line and leaves the line feed in place. A block
comment runs from `/*` to the first `*/` behind these two characters, or to the end of the text if
there is none. Comments and blanks may stand between any two parts of a declaration.
-/

namespace ShaderInterface.Interface

open ShaderInterface.Text

/-- What follows a block comment, given the text behind its opening mark. -/
def afterBlock (text : Text) : Text :=
  match text.breakOn? '*' '/' with
  | some (_, after) => after
  | none => []

/-- What follows the comment that a text starts with, if it starts with one. -/
def afterComment? : Text → Option Text
  | '/' :: '/' :: rest => some (rest.dropWhile (· != '\n'))
  | '/' :: '*' :: rest => some (afterBlock rest)
  | _ => none

/-- What follows a comment is shorter than the text that it was found in. -/
theorem length_lt_of_afterComment? {text after : Text} (h : afterComment? text = some after) :
    after.length < text.length := by
  unfold afterComment? at h
  split at h
  next rest =>
    cases h
    have := (List.dropWhile_suffix (· != '\n') (l := rest)).length_le
    simp only [List.length_cons]
    omega
  next rest =>
    cases h
    unfold afterBlock
    split
    next found =>
      have := length_lt_of_breakOn? found
      simp only [List.length_cons]
      omega
    next => simp
  next => cases h

/-- A text without the blanks and comments at its beginning. -/
def skipTrivia (text : Text) : Text :=
  match _h : afterComment? text with
  | some after => skipTrivia after
  | none =>
    match text with
    | [] => []
    | c :: rest => if isBlank c then skipTrivia rest else c :: rest
termination_by text.length
decreasing_by
  · exact length_lt_of_afterComment? _h
  · simp

/-- A text without comments. A block comment leaves a space. -/
def stripComments (text : Text) : Text :=
  match _h : afterComment? text with
  | some after =>
    if "//".toList.isPrefixOf text then stripComments after else ' ' :: stripComments after
  | none =>
    match text with
    | [] => []
    | c :: rest => c :: stripComments rest
termination_by text.length
decreasing_by
  · exact length_lt_of_afterComment? _h
  · exact length_lt_of_afterComment? _h
  · simp

/-- Skipping blanks and comments makes no text longer. -/
theorem length_skipTrivia_le (text : Text) : (skipTrivia text).length ≤ text.length := by
  fun_induction skipTrivia text with
  | case1 text after h ih =>
    have := length_lt_of_afterComment? h
    omega
  | case2 => simp
  | case3 c rest _ _ ih =>
    simp only [List.length_cons]
    omega
  | case4 => simp

end ShaderInterface.Interface
