import ShaderInterface.Arithmetic.Evaluation
import ShaderInterface.Text.Word

/-!
# Definitions

A definition is a name, which is a word, and a value behind blanks, which may be missing. A value
that looks like arithmetic is computed when the macro is defined, from the macros that are defined
then.
-/

namespace ShaderInterface

open ShaderInterface.Text

/-- A name and the text of its value. -/
structure Definition where
  name : Text
  value : Text
  deriving DecidableEq, Repr

namespace Definition

/-- The definition that a text writes. Behind the name there must be a blank or nothing. -/
def ofText? (text : Text) : Option Definition :=
  let name := text.takeWhile isWord
  let rest := text.dropWhile isWord
  if name.isEmpty || rest.head?.any (!isBlank ·) then none
  else some { name, value := trim rest }

/-- Whether a character can belong to arithmetic: word characters, blanks, points and operators. -/
def isArithmeticChar (c : Char) : Bool :=
  isWord c || isBlank c || c == '.' || Arithmetic.isOperator c

/-- Whether a text looks like arithmetic. -/
def looksArithmetic (text : Text) : Bool :=
  Arithmetic.containsOperator text && text.all isArithmeticChar

/-- The value that the macro is given under a table. -/
def evaluate (table : Macro.Table) (definition : Definition) :
    Except Arithmetic.Fault Macro.Value :=
  match Macro.Value.ofText definition.value with
  | .text written =>
    if looksArithmetic written then (Arithmetic.evaluate table written).map .number
    else .ok (.text written)
  | value => .ok value

end Definition

end ShaderInterface
