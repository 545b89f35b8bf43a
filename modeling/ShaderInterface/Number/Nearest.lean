import ShaderInterface.Number.Magnitude

/-!
# The Nearest Double

A quotient of natural numbers is rounded to the magnitude of the nearest double. The quotient
counts units; it is divided by the power of two that leaves 53 binary digits, or by one when there
are fewer, and what is left is rounded to a whole number. The magnitude is then that number plus
as many times `2 ^ 52` as the power has factors: the fields of a double are laid out so that a
carry out of the 53 digits lands in the exponent, where it belongs.
-/

namespace ShaderInterface.Number

/-- The quotient rounded to the nearest whole number, to the even one when two are equally near. -/
def roundedQuotient (numerator denominator : Nat) : Nat :=
  let quotient := numerator / denominator
  let excess := 2 * (numerator % denominator)
  if excess < denominator then quotient
  else if denominator < excess then quotient + 1
  else quotient + quotient % 2

/-- The magnitude of the double nearest to a quotient of units. -/
def nearestMagnitude (numerator denominator : Nat) : Nat :=
  let scale := (numerator / denominator).log2 - 52
  min (scale * Nat.pow 2 52 + roundedQuotient numerator (denominator * Nat.pow 2 scale))
    infiniteMagnitude

end ShaderInterface.Number
