import ShaderInterface.Number.Decimal

/-!
# Numerals

A numeral is an optional sign followed by a decimal, by `inf` or `infinity`, or by `nan`, in any
case. A decimal has digits before or after a point, or both, and may end with a power of ten. A
numeral stands for the nearest double.
-/

namespace ShaderInterface.Number

open ShaderInterface.Text

/-- The size of the number that a numeral writes, without its sign. -/
inductive Size where
  /-- Digits, and the power of ten that the last of them counts. -/
  | finite (digits : Text) (exponent : Int)
  /-- A size beyond all finite ones. -/
  | infinite
  /-- No number at all. -/
  | undefined
  deriving DecidableEq, Repr

/-- A number as it is written: a sign and a size. -/
structure Numeral where
  /-- Whether a minus sign stands in front. -/
  negative : Bool
  /-- What follows the sign. -/
  size : Size
  deriving DecidableEq, Repr

/-- Splits a sign off a text, and tells whether it is a minus sign. -/
def splitSign : Text → Bool × Text
  | '-' :: rest => (true, rest)
  | '+' :: rest => (false, rest)
  | text => (false, text)

/-- The power of ten written at the end of a decimal: nothing, or `e` and a whole number. -/
def powerOfTen? : Text → Option Int
  | [] => some 0
  | mark :: rest =>
    let (negative, digits) := splitSign rest
    if mark.toLower == 'e' && !digits.isEmpty && digits.all Char.isDigit then
      let power : Int := Nat.ofDigitChars 10 digits 0
      some (if negative then -power else power)
    else none

/-- Splits the digits after a point off a text, if it starts with a point. -/
def splitFraction : Text → Text × Text
  | '.' :: rest => (rest.takeWhile Char.isDigit, rest.dropWhile Char.isDigit)
  | text => ([], text)

/-- The size that a decimal without a sign writes. -/
def decimalSize? (text : Text) : Option Size :=
  let whole := text.takeWhile Char.isDigit
  let (fraction, rest) := splitFraction (text.dropWhile Char.isDigit)
  if whole.isEmpty && fraction.isEmpty then none
  else (powerOfTen? rest).map fun power => .finite (whole ++ fraction) (power - fraction.length)

/-- The size that a word writes. -/
def namedSize? (text : Text) : Option Size :=
  let word := text.map Char.toLower
  if word = "inf".toList ∨ word = "infinity".toList then some .infinite
  else if word = "nan".toList then some .undefined
  else none

namespace Numeral

/-- The numeral that a text writes. -/
def ofText? (text : Text) : Option Numeral :=
  let (negative, rest) := splitSign text
  ((decimalSize? rest).or (namedSize? rest)).map fun size => { negative, size }

/-- The magnitude of a run of digits that counts a power of ten. Sizes above `10 ^ 310` are beyond
every double and sizes below `10 ^ (-400)` are nearest to zero, whatever the digits. -/
def magnitude (digits : Text) (exponent : Int) : Nat :=
  let coefficient := Nat.ofDigitChars 10 digits 0
  if coefficient = 0 then 0
  else if 310 < exponent then infiniteMagnitude
  else if exponent + digits.length < -400 then 0
  else Decimal.nearestMagnitude { coefficient, exponent }

/-- The double that a numeral stands for. -/
def value (numeral : Numeral) : Float :=
  match numeral.size with
  | .finite digits exponent => ofMagnitude numeral.negative (magnitude digits exponent)
  | .infinite => ofMagnitude numeral.negative infiniteMagnitude
  | .undefined => 0.0 / 0.0

end Numeral

/-- The double that a text writes. -/
def ofText? (text : Text) : Option Float :=
  (Numeral.ofText? text).map Numeral.value

end ShaderInterface.Number
