import ShaderInterface.Text.Basic
import ShaderInterface.Text.Printable

/-!
# Quoted Texts

Messages show the texts they speak of between quotes. Within the quotes a backslash stands before
the quote itself, another backslash and the letters `0`, `t`, `r` and `n` of four controls; any
other character that is not printable is written by its code point in lower-case hexadecimal
digits between braces.
-/

namespace ShaderInterface.Text

/-- One character as it is written between two quotes of the given kind. -/
def escape (quote c : Char) : Text :=
  if c == '\x00' then ['\\', '0']
  else if c == '\t' then ['\\', 't']
  else if c == '\r' then ['\\', 'r']
  else if c == '\n' then ['\\', 'n']
  else if c == '\\' || c == quote then ['\\', c]
  else if isPrintable c then [c]
  else ['\\', 'u', '\x7b'] ++ Nat.toDigits 16 c.toNat ++ ['\x7d']

/-- The text between double quotes. -/
def quoted (text : Text) : Text :=
  '"' :: text.flatMap (escape '"') ++ ['"']

/-- A single character between single quotes. -/
def quotedChar (c : Char) : Text :=
  '\'' :: escape '\'' c ++ ['\'']

end ShaderInterface.Text
