import ShaderInterface.Text.Blank

/-!
# Texts

A text is the list of its characters. This module holds the cuts that the library is built from: a
text without the blanks at its ends, the words between its blanks, the parts around the first
occurrence of a character or of a mark of two characters, and the pieces between all occurrences
of a mark.

Every cut at a mark leaves a shorter text behind it, which is what ends the searches that go on
there.
-/

namespace ShaderInterface

/-- A text, as the list of its characters. -/
abbrev Text := List Char

namespace Text

/-- The text without its leading blanks. -/
def trimStart (text : Text) : Text :=
  text.dropWhile isBlank

/-- The text without its trailing blanks. -/
def trimEnd (text : Text) : Text :=
  (text.reverse.dropWhile isBlank).reverse

/-- The text without the blanks at either end. -/
def trim (text : Text) : Text :=
  text.trimStart.trimEnd

/-- The non-empty runs of characters between blanks. -/
def words (text : Text) : List Text :=
  (text.splitOnP isBlank).filter (!·.isEmpty)

/-- The first word of the text, empty when there is none. -/
def firstWord (text : Text) : Text :=
  text.words.headD []

/-- Words joined by single spaces. -/
def unwords (words : List Text) : Text :=
  [' '].intercalate words

/-- The parts before and after the first occurrence of a character, if it occurs. -/
def cut? (separator : Char) (text : Text) : Option (Text × Text) :=
  match text.dropWhile (· != separator) with
  | [] => none
  | _ :: after => some (text.takeWhile (· != separator), after)

/-- What follows a character is shorter than the text that it was found in. -/
theorem length_lt_of_cut? {separator : Char} {text before after : Text}
    (h : text.cut? separator = some (before, after)) : after.length < text.length := by
  have bound := (List.dropWhile_suffix (· != separator) (l := text)).length_le
  unfold cut? at h
  split at h
  · cases h
  next eq =>
    cases h
    rw [eq, List.length_cons] at bound
    omega

/-- The parts before and after the first occurrence of a mark of two characters, if it occurs. -/
def breakOn? (first second : Char) : Text → Option (Text × Text)
  | c :: d :: rest =>
    if c = first ∧ d = second then some ([], rest)
    else (breakOn? first second (d :: rest)).map fun (before, after) => (c :: before, after)
  | _ => none

/-- What follows a mark is shorter than the text that it was found in. -/
theorem length_lt_of_breakOn? {first second : Char} {text before after : Text}
    (h : text.breakOn? first second = some (before, after)) : after.length < text.length := by
  fun_induction breakOn? first second text generalizing before with
  | case1 c d rest =>
    cases h
    simp only [List.length_cons]
    omega
  | case2 c d rest _ ih =>
    obtain ⟨⟨start, found⟩, hrest, heq⟩ := Option.map_eq_some_iff.1 h
    cases heq
    have := ih hrest
    simp only [List.length_cons] at *
    omega
  | case3 => cases h

/-- What stands before the first occurrence of a mark, or the whole text. -/
def beforeMark (first second : Char) (text : Text) : Text :=
  match text.breakOn? first second with
  | some (before, _) => before
  | none => text

/-- The pieces between the occurrences of a mark, which are found from left to right. -/
def splitOnMark (first second : Char) (text : Text) : List Text :=
  match _h : text.breakOn? first second with
  | some (before, after) => before :: splitOnMark first second after
  | none => [text]
termination_by text.length
decreasing_by exact length_lt_of_breakOn? _h

/-- The digits of a natural number in base ten. -/
def ofNat (n : Nat) : Text :=
  Nat.toDigits 10 n

/-- The digits of an integer in base ten, after a minus sign when it is negative. -/
def ofInt (n : Int) : Text :=
  if n < 0 then '-' :: ofNat n.natAbs else ofNat n.natAbs

end Text

end ShaderInterface
