import ShaderInterface.Number.Magnitude

/-!
# Truncation

Sizes, locations and bindings are whole numbers of a fixed range, while expressions are evaluated
to doubles. A double is cut toward zero and then moved to the nearest end of the range. What is no
number counts as zero.
-/

namespace ShaderInterface.Number

/-- A range of whole numbers. -/
structure IntRange where
  /-- The least number of the range. -/
  least : Int
  /-- The greatest number of the range. -/
  greatest : Int
  deriving DecidableEq, Repr

namespace IntRange

/-- The signed numbers of 32 bits. -/
def signed32 : IntRange := ⟨Int32.minValue.toInt, Int32.maxValue.toInt⟩

/-- The signed numbers of 64 bits. -/
def signed64 : IntRange := ⟨Int64.minValue.toInt, Int64.maxValue.toInt⟩

/-- The unsigned numbers of 32 bits. -/
def unsigned32 : IntRange := ⟨0, UInt32.size - 1⟩

/-- The number of the range nearest to a whole number. -/
def clamp (range : IntRange) (n : Int) : Int :=
  max range.least (min range.greatest n)

end IntRange

/-- The whole part of a double. The infinities are taken for `2 ^ 1024`, beyond every range here. -/
def wholePart (x : Float) : Int :=
  if x.isNaN then 0
  else
    let whole : Int := (units (magnitude x) / unitsPerOne : Nat)
    if isSigned x then -whole else whole

/-- A double cut toward zero and moved into a range. -/
def truncate (range : IntRange) (x : Float) : Int :=
  range.clamp (wholePart x)

end ShaderInterface.Number
