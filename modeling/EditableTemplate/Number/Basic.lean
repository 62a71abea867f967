import EditableTemplate.Number.Layout

/-!
# Numbers

A number is a whole number of any size or a finite value of the 64-bit binary format, and the two
kinds stay apart: `1` is not `1.0`. They have the same worth, though, if they stand for the same
point of the line (`Number.agrees`), which is decided exactly. `Number.shown` is the form in a
message and `Number.rendered` the form in rendered output.
-/

namespace EditableTemplate

/-- A number as a template or an override gives it. -/
inductive Number
  /-- A whole number. -/
  | integer (value : Int)
  /-- A finite binary value. -/
  | real (value : Binary64)
  deriving DecidableEq

namespace Number

/-- The exact value in units of the least positive binary value. -/
def units : Number → Int
  | .integer value => value * twoPow Binary64.unitExponent
  | .real value => value.units

/-- Whether two numbers have the same value, whatever their kinds. -/
def agrees (first second : Number) : Bool :=
  first.units = second.units

/-- Numbers agree exactly when their values do. -/
theorem agrees_iff (first second : Number) :
    first.agrees second = true ↔ first.units = second.units := by
  simp [agrees]

/-- The number in a message. -/
def shown : Number → List Char
  | .integer value => Digits.write value
  | .real value => value.write

/-- The number in rendered output: a binary value that is whole has no fractional part. -/
def rendered : Number → List Char
  | .integer value => Digits.write value
  | .real value => match value.toInt? with
    | some whole => Digits.write whole
    | none => value.write

/-- Whether the number has few enough digits to be written. -/
def writable : Number → Bool
  | .integer value => Digits.fits value
  | .real _ => true

end Number

end EditableTemplate
