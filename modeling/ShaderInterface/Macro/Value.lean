import ShaderInterface.Number.Positional

/-!
# Macro Values

A macro without a value is a flag: it can be tested for, and nothing is put in its place. A value
that is written as a number is kept as that number, any other as its text.
-/

namespace ShaderInterface.Macro

open ShaderInterface.Text

/-- What a macro name stands for. -/
inductive Value where
  /-- The name is defined and has no value. -/
  | flag
  /-- A number, written or computed. -/
  | number (x : Float)
  /-- Any other text, as it was written. -/
  | text (written : Text)
  deriving DecidableEq

namespace Value

/-- The value that a text writes, leaving aside the blanks at its ends. -/
def ofText (text : Text) : Value :=
  if text.trim.isEmpty then .flag
  else
    match Number.ofText? text.trim with
    | some x => .number x
    | none => .text text.trim

/-- The text put in place of the name; a flag has none. -/
def replacement? : Value → Option Text
  | .flag => none
  | .number x => some (Number.text x)
  | .text written => some written

/-- The value as a text; a flag is shown as nothing. -/
def display (value : Value) : Text :=
  value.replacement?.getD []

end Value

end ShaderInterface.Macro
