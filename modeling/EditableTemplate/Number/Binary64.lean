import EditableTemplate.Number.Digits
import EditableTemplate.Number.Power

/-!
# Binary floating point of 64 bits

A finite value is a sign, a significand below `2 ^ 53` and a scale: the significand counts units
of `2 ^ scale` times the least positive value, `2 ^ -1074`. Among the ways to write a magnitude
so, the one with the least scale is taken, so that only zero has two forms, one for each sign.
`Binary64.units` is the exact value in the least unit, and `Binary64.ofRatio` rounds a quotient to
the nearest value, a tie going to the even significand.
-/

namespace EditableTemplate

/-- A finite value of the 64-bit binary format. -/
structure Binary64 where
  /-- Whether the sign is set; zero has a sign too. -/
  negative : Bool
  /-- The significand. -/
  significand : Nat
  /-- The exponent of two that scales the significand, above that of the least unit. -/
  scale : Nat
  /-- The significand has at most 53 bits. -/
  significand_lt : significand < twoPow 53
  /-- The scale has a greatest value. -/
  scale_le : scale ≤ 2045
  /-- A significand of fewer than 53 bits occurs with the least scale only. -/
  normal : scale = 0 ∨ twoPow 52 ≤ significand
  deriving DecidableEq

namespace Binary64

/-- How many powers of two the least unit lies below one. -/
def unitExponent : Nat := 1074

/-- The zero of a sign. -/
def zero (negative : Bool) : Binary64 :=
  { negative, significand := 0, scale := 0
    significand_lt := by decide, scale_le := by decide, normal := .inl rfl }

/-- The magnitude in least units. -/
def magnitude (x : Binary64) : Nat :=
  x.significand * twoPow x.scale

/-- The exact value in least units. -/
def units (x : Binary64) : Int :=
  Digits.signed x.negative x.magnitude

/-- The exact value if it is a whole number. -/
def toInt? (x : Binary64) : Option Int :=
  if x.magnitude % twoPow unitExponent = 0 then
    some (Digits.signed x.negative (x.magnitude / twoPow unitExponent))
  else none

/-- The value with the given parts, if they are those of one. -/
def ofParts? (negative : Bool) (significand scale : Nat) : Option Binary64 :=
  if parts : significand < twoPow 53 ∧ scale ≤ 2045 ∧ (scale = 0 ∨ twoPow 52 ≤ significand) then
    some ⟨negative, significand, scale, parts.1, parts.2.1, parts.2.2⟩
  else none

/-- A quotient rounded to the nearest whole number, a half going to the even one. -/
def roundDiv (numerator denominator : Nat) : Nat :=
  let quotient := numerator / denominator
  let twice := 2 * (numerator % denominator)
  if denominator < twice ∨ (twice = denominator ∧ quotient % 2 = 1) then quotient + 1
  else quotient

/-- The scale at which a magnitude of so many least units has a significand of 53 bits. -/
def scaleOf (units : Nat) : Nat :=
  if units < twoPow 53 then 0 else units.log2 - 52

/-- The value nearest to a quotient, ties to even; none if it is beyond the greatest value. -/
def ofRatio (negative : Bool) (numerator denominator : Nat) : Option Binary64 :=
  let numerator := numerator * twoPow unitExponent
  let scale := scaleOf (numerator / denominator)
  let significand := roundDiv numerator (denominator * twoPow scale)
  if significand = twoPow 53 then ofParts? negative (twoPow 52) (scale + 1)
  else ofParts? negative significand scale

/-- The value nearest to a whole number of powers of ten, ties to even; none if it is beyond the
greatest value. Exponents that leave no doubt about the answer are not computed. -/
def ofDecimal (negative : Bool) (coefficient : Nat) (exponent : Int) : Option Binary64 :=
  let order : Int := Digits.count coefficient + exponent
  if coefficient = 0 then some (zero negative)
  else if 310 < order then none
  else if order < -330 then some (zero negative)
  else if 0 ≤ exponent then ofRatio negative (coefficient * tenPow exponent.toNat) 1
  else ofRatio negative coefficient (tenPow (-exponent).toNat)

end Binary64

/-- Any value of the 64-bit binary format. -/
inductive Binary64.Extended
  /-- A finite value. -/
  | finite (x : Binary64)
  /-- An infinity. -/
  | infinite (negative : Bool)
  /-- No number. -/
  | nan
  deriving DecidableEq

/-- A rounded value; beyond the greatest finite one lies the infinity of the sign. -/
def Binary64.Extended.ofRounded (negative : Bool) : Option Binary64 → Binary64.Extended
  | some x => .finite x
  | none => .infinite negative

end EditableTemplate
