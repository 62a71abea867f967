import EditableTemplate.Number.Binary64

/-!
# The shortest decimal of a binary value

Of all decimals that round to a value, `Binary64.shortest` takes one with the fewest digits, and of
those the nearest to the value. The decimals that round to it are those between the midpoints to
its two neighbours (`Neighborhood`), the midpoints themselves included if the significand is even.
-/

namespace EditableTemplate

/-- A decimal: a whole coefficient times a power of ten. -/
structure Decimal where
  /-- The digits, as one number. -/
  coefficient : Nat
  /-- The exponent of ten. -/
  exponent : Int
  deriving DecidableEq, Repr

/-- The decimal without trailing zeros in its coefficient. -/
def Decimal.trimmed (coefficient : Nat) (exponent : Int) : Decimal :=
  if coefficient ≠ 0 ∧ coefficient % 10 = 0 then trimmed (coefficient / 10) (exponent + 1)
  else ⟨coefficient, exponent⟩
termination_by coefficient
decreasing_by omega

/-- The numbers that round to one value: their bounds and the value over a common denominator. -/
structure Neighborhood where
  /-- The midpoint to the next smaller value. -/
  low : Nat
  /-- The value. -/
  center : Nat
  /-- The midpoint to the next greater value. -/
  high : Nat
  /-- What all three are divided by. -/
  denominator : Nat
  /-- Whether the bounds round to the value too. -/
  closed : Bool

namespace Neighborhood

/-- The neighborhood of a positive magnitude. Below a power of two the values lie twice as close,
except at the least scale. -/
def of (x : Binary64) : Neighborhood :=
  let below := if x.significand = twoPow 52 ∧ x.scale ≠ 0 then 1 else 2
  let factor := twoPow (x.scale - (Binary64.unitExponent + 2))
  { low := (4 * x.significand - below) * factor
    center := 4 * x.significand * factor
    high := (4 * x.significand + 2) * factor
    denominator := twoPow (Binary64.unitExponent + 2 - x.scale)
    closed := x.significand % 2 = 0 }

/-- The count of digits before the point; below one, less by each zero after it. -/
def order (near : Neighborhood) : Int :=
  if near.denominator ≤ near.center then Digits.count (near.center / near.denominator)
  else 1 - Digits.count ((near.denominator - 1) / near.center)

/-- The neighborhood measured in units of a power of ten. -/
def inUnits (near : Neighborhood) (exponent : Int) : Neighborhood :=
  let factor := tenPow (-exponent).toNat
  { near with
    low := near.low * factor
    center := near.center * factor
    high := near.high * factor
    denominator := near.denominator * tenPow exponent.toNat }

/-- Whether a whole number of units rounds to the value. -/
def holds (near : Neighborhood) (coefficient : Nat) : Bool :=
  let place := coefficient * near.denominator
  if near.closed then near.low ≤ place && place ≤ near.high
  else near.low < place && place < near.high

/-- Of the two whole numbers of units next to the value, the nearer one that rounds to it; a tie
goes to the even one. -/
def nearest? (near : Neighborhood) : Option Nat :=
  let down := near.center / near.denominator
  let twice := 2 * near.center
  let middle := (2 * down + 1) * near.denominator
  let preferDown := twice < middle || (twice = middle && down % 2 = 0)
  match near.holds down, near.holds (down + 1) with
  | true, true => some (if preferDown then down else down + 1)
  | true, false => some down
  | false, true => some (down + 1)
  | false, false => none

/-- The nearest decimal of so many digits that rounds to the value. -/
def decimal? (near : Neighborhood) (digits : Nat) : Option Decimal :=
  let exponent := near.order - digits
  (near.inUnits exponent).nearest?.map fun coefficient => Decimal.trimmed coefficient exponent

end Neighborhood

/-- The count of digits with which every value of the format can be told from its neighbours. -/
def Binary64.sufficientDigits : Nat := 17

/-- The shortest decimal that rounds to the magnitude of a value, and the nearest of those. -/
def Binary64.shortest (x : Binary64) : Decimal :=
  let near := Neighborhood.of x
  if x.significand = 0 then ⟨0, 0⟩
  else ((List.range' 1 sufficientDigits).findSome? near.decimal?).getD ⟨0, 0⟩

end EditableTemplate
