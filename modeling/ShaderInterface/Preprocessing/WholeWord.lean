import ShaderInterface.Macro.Table
import ShaderInterface.Text.Word

/-!
# Whole-Word Replacement

A macro name is replaced where it stands between two word boundaries, so that longer words that
hold it are left alone. The text put in its place is not searched again for the same name, but it
is for the names that come later in the table.
-/

namespace ShaderInterface.Preprocessing

open ShaderInterface.Text

/-- What follows a name at the beginning of a text, when the name stands between word boundaries
there; `before` is the character in front of the text. -/
def wholeWord? (name : Text) (before : Option Char) (text : Text) : Option Text := do
  let rest ← name.isPrefixOf? text
  if isBoundary before text.head? && isBoundary (name.getLast?.or before) rest.head? then some rest
  else none

/-- Replaces the occurrences of a name as a whole word in a text behind the character `before`. The
empty name occurs at every word boundary. -/
def replaceWordFrom (name replacement : Text) (before : Option Char) : Text → Text
  | [] => if (wholeWord? name before []).isSome then replacement else []
  | c :: rest =>
    match wholeWord? name before (c :: rest) with
    | none => c :: replaceWordFrom name replacement (some c) rest
    | some _ =>
      if name.isEmpty then replacement ++ c :: replaceWordFrom name replacement (some c) rest
      -- Boundaries are those of the text before the replacement, so the name stays the neighbour.
      else replacement ++
        replaceWordFrom name replacement name.getLast? (rest.drop (name.length - 1))
termination_by text => text.length

/-- Replaces the occurrences of a name as a whole word. -/
def replaceWord (name replacement text : Text) : Text :=
  replaceWordFrom name replacement none text

/-- Replaces the names of a table that have a replacement, one after the other. -/
def replaceWords (table : Macro.Table) (text : Text) : Text :=
  table.entries.foldl (fun text (name, value) =>
    match value.replacement? with
    | some replacement => replaceWord name replacement text
    | none => text) text

end ShaderInterface.Preprocessing
