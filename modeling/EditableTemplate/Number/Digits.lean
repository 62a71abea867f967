import EditableTemplate.Text.DecimalDigit

/-!
# Whole numbers as digits

Whole numbers are written in ASCII digits (`Digits.write`) and read from digits of any script
(`Digits.value`). Text may hold at most `Digits.limit` digits of one whole number: a longer one is
neither written nor read.
-/

namespace EditableTemplate.Digits

/-- The greatest count of digits that a whole number may have in a text. -/
def limit : Nat := 4300

/-- The count of decimal digits of a number; zero has one. -/
def count (number : Nat) : Nat :=
  (Nat.toDigits 10 number).length

/-- A whole number in decimal, with a minus sign if it is negative. -/
def write (number : Int) : List Char :=
  if number < 0 then '-' :: Nat.toDigits 10 number.natAbs else Nat.toDigits 10 number.natAbs

/-- Whether a whole number has few enough digits to be written. -/
def fits (number : Int) : Bool :=
  count number.natAbs ≤ limit

/-- The number whose decimal digits, most significant first, have the given values. -/
def value (digits : List Nat) : Nat :=
  digits.foldl (fun number digit => number * 10 + digit) 0

/-- A magnitude with a sign. -/
def signed (negative : Bool) (magnitude : Nat) : Int :=
  if negative then -magnitude else magnitude

/-- The whole number that the digits spell, unless they are too many. Leading zeros count. -/
def readSigned? (negative : Bool) (digits : List Nat) : Option Int :=
  if digits.length ≤ limit then some (signed negative (value digits)) else none

end EditableTemplate.Digits
