import ShaderInterface.Number.Positional
import ShaderInterface.Text.Numeric
import ShaderInterface.Text.Quoted

/-!
# Arithmetic Tokens

An arithmetic text is read as a list of operators and numbers. A number is a run of digits and
points, as long as possible. Names have been replaced by their values before, so that a name found
here is an error, as is any other character that is not blank.
-/

namespace ShaderInterface.Arithmetic

open ShaderInterface.Text

/-- The four operations. -/
inductive Operator where
  | add
  | subtract
  | multiply
  | divide
  deriving DecidableEq, Repr

namespace Operator

/-- The sign of an operation. -/
def sign : Operator → Char
  | .add => '+'
  | .subtract => '-'
  | .multiply => '*'
  | .divide => '/'

/-- The operation with a given sign. -/
def ofSign? : Char → Option Operator
  | '+' => some .add
  | '-' => some .subtract
  | '*' => some .multiply
  | '/' => some .divide
  | _ => none

end Operator

/-- Whether a character is the sign of an operation. -/
def isOperator (c : Char) : Bool :=
  (Operator.ofSign? c).isSome

/-- A number or an operator. -/
inductive Token where
  | number (x : Float)
  | operator (op : Operator)
  deriving DecidableEq

/-- The token as messages show it. -/
def Token.text : Token → Text
  | .number x => Number.text x
  | .operator op => [op.sign]

/-- Why an arithmetic text has no value. -/
inductive Fault where
  /-- The text has no token at all. -/
  | empty
  /-- A character belongs to no token. -/
  | invalidCharacter (c : Char)
  /-- A run of digits and points is not a number. -/
  | invalidNumber (digits : Text)
  /-- A name has no value that could be put in its place. -/
  | unknownName (name : Text)
  /-- A token stands where it cannot; positions count from zero. -/
  | unexpectedToken (token : Token) (position : Nat)
  /-- The text ends where a number is due. -/
  | unexpectedEnd
  /-- A divisor is zero. -/
  | divisionByZero
  deriving DecidableEq

/-- The message for a fault. -/
def Fault.message : Fault → Text
  | .empty => "empty expression".toList
  | .invalidCharacter c => "invalid character ".toList ++ quotedChar c
  | .invalidNumber digits => "invalid number ".toList ++ quoted digits
  | .unknownName name => "unknown identifier ".toList ++ quoted name
  | .unexpectedToken token position =>
    "unexpected token ".toList ++ quoted token.text ++ " at position ".toList ++ ofNat position
  | .unexpectedEnd => "unexpected end of expression".toList
  | .divisionByZero => "division by zero".toList

/-- Whether a character belongs to a run of digits and points. -/
def isNumeral (c : Char) : Bool :=
  c.isDigit || c == '.'

/-- The tokens of a text, or the first fault among them. -/
def tokens : Text → Except Fault (List Token)
  | [] => .ok []
  | c :: rest =>
    if isBlank c then tokens rest
    else
      match Operator.ofSign? c with
      | some op => (tokens rest).map (.operator op :: ·)
      | none =>
        -- The whole run has to be one number: `1.2.3` is not cut into two of them.
        if isNumeral c then
          let digits := c :: rest.takeWhile isNumeral
          match Number.ofText? digits with
          | some x => (tokens (rest.dropWhile isNumeral)).map (.number x :: ·)
          | none => .error (.invalidNumber digits)
        else if opensName c then .error (.unknownName (c :: rest.takeWhile continuesName))
        else .error (.invalidCharacter c)
termination_by text => text.length
decreasing_by
  all_goals have := (List.dropWhile_suffix isNumeral (l := rest)).length_le
  all_goals simp only [List.length_cons]; omega

end ShaderInterface.Arithmetic
