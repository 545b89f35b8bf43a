import ShaderInterface.Number.Nearest
import ShaderInterface.Text.Basic

/-!
# Decimals

A decimal is a run of digits and the power of ten that its last digit counts. Each is rounded to the
nearest double, and each double has the decimal with the fewest digits that is rounded to it.
-/

namespace ShaderInterface.Number

/-- The number `coefficient * 10 ^ exponent`. -/
structure Decimal where
  /-- The number that the digits make. -/
  coefficient : Nat
  /-- The power of ten that the last digit counts. -/
  exponent : Int
  deriving DecidableEq, Repr

namespace Decimal

/-- The magnitude of the double nearest to a decimal. -/
def nearestMagnitude (decimal : Decimal) : Nat :=
  Number.nearestMagnitude (decimal.coefficient * Nat.pow 10 decimal.exponent.toNat * unitsPerOne)
    (Nat.pow 10 (-decimal.exponent).toNat)

/-- The decimal equal to a number of units. As `10 ^ 1074` units are `5 ^ 1074`, no digit is lost.
-/
def ofUnits (units : Nat) : Decimal :=
  { coefficient := units * Nat.pow 5 1074, exponent := -1074 }

/-- Of the two decimals on either side of a number of units that lack its last `dropped` digits, the
one that is rounded to the given magnitude. When both are, it is the nearer one, or the greater when
both are equally near. -/
def neighbour? (units magnitude dropped : Nat) : Option Decimal :=
  let coefficient := (ofUnits units).coefficient
  let step := Nat.pow 10 dropped
  let below : Decimal := ⟨coefficient / step, dropped - 1074⟩
  let above : Decimal := { below with coefficient := below.coefficient + 1 }
  let fits (decimal : Decimal) : Bool := decimal.nearestMagnitude == magnitude
  -- What is cut off decides which one is nearer: less than half of a step, or half and more.
  if fits below && (!fits above || 2 * (coefficient % step) < step) then some below
  else if fits above then some above
  else none

/-- The decimal with the fewest digits that is rounded to a magnitude. -/
def shortest (magnitude : Nat) : Decimal :=
  let units := units magnitude
  let digits := (Nat.toDigits 10 (ofUnits units).coefficient).length
  let candidates := (List.range digits).map fun taken => digits - 1 - taken
  (candidates.findSome? (neighbour? units magnitude)).getD (ofUnits units)

end Decimal

end ShaderInterface.Number
