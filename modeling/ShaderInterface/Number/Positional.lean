import ShaderInterface.Number.Numeral

/-!
# Positional Notation

A double is written with the fewest digits that are read back as it, and always in full: every zero
between the digits and the point is written, and there is no power of ten. A whole number has no
point. Zero keeps its sign.
-/

namespace ShaderInterface.Number

open ShaderInterface.Text

/-- The fractional part behind its point, without trailing zeros, or nothing when it is zero. -/
def fractionText (digits : Text) : Text :=
  match digits.reverse.dropWhile (· == '0') with
  | [] => []
  | significant => '.' :: significant.reverse

/-- A decimal written in full. -/
def Decimal.text (decimal : Decimal) : Text :=
  let digits := Text.ofNat decimal.coefficient
  let places := (-decimal.exponent).toNat
  let padded := List.replicate (places + 1 - digits.length) '0' ++ digits
  padded.take (padded.length - places) ++ List.replicate decimal.exponent.toNat '0' ++
    fractionText (padded.drop (padded.length - places))

/-- The size of a number with the given magnitude, in full. -/
def magnitudeText (magnitude : Nat) : Text :=
  if magnitude = infiniteMagnitude then "inf".toList
  else if magnitude = 0 then ['0']
  else (Decimal.shortest magnitude).text

/-- The text of a double. -/
def text (x : Float) : Text :=
  if x.isNaN then "NaN".toList
  else if isSigned x then '-' :: magnitudeText (magnitude x)
  else magnitudeText (magnitude x)

end ShaderInterface.Number
