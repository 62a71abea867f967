import EditableTemplate.Number.Shortest

/-!
# The layout of decimals

A decimal is written positionally if its leading digit has a place near the point, otherwise as one
digit before the point and a power of ten. `Layout` holds the decisions, and `Layout.number` is the
one in which this library writes its numbers.
-/

namespace EditableTemplate

/-- How a decimal is laid out as text. -/
structure Layout where
  /-- The least power of ten of the leading digit that is written positionally. -/
  positionalFrom : Int
  /-- The least power of ten of the leading digit that is too great for it. -/
  positionalBelow : Int
  /-- The least count of digits of a written exponent. -/
  exponentWidth : Nat

namespace Layout

/-- Numbers are positional from a ten-thousandth up to, and not including, ten to the sixteenth; a
written exponent has a sign and at least two digits. -/
def number : Layout := ⟨-4, 16, 2⟩

/-- A positional decimal, with at least one digit on each side of the point. -/
def positional (digits : List Char) (exponent : Int) : List Char :=
  let whole : Int := digits.length + exponent
  if 0 ≤ exponent then digits ++ List.replicate exponent.toNat '0' ++ ['.', '0']
  else if 0 < whole then digits.take whole.toNat ++ '.' :: digits.drop whole.toNat
  else ['0', '.'] ++ List.replicate (-whole).toNat '0' ++ digits

/-- An exponent of ten with its sign, padded to a width. -/
def exponent (width : Nat) (power : Int) : List Char :=
  let digits := Nat.toDigits 10 power.natAbs
  'e' :: (if power < 0 then '-' else '+') :: List.replicate (width - digits.length) '0' ++ digits

/-- One digit, the others after a point if there are any, and the power of ten. -/
def scientific (width : Nat) (digits : List Char) (power : Int) : List Char :=
  let mantissa := match digits with
    | [] => []
    | [digit] => [digit]
    | digit :: rest => digit :: '.' :: rest
  mantissa ++ exponent width power

/-- A decimal as text. -/
def write (layout : Layout) (decimal : Decimal) : List Char :=
  let digits := Nat.toDigits 10 decimal.coefficient
  let power : Int := digits.length - 1 + decimal.exponent
  if layout.positionalFrom ≤ power ∧ power < layout.positionalBelow then
    positional digits decimal.exponent
  else scientific layout.exponentWidth digits power

end Layout

/-- A finite value as text: the fewest digits that identify it. -/
def Binary64.write (x : Binary64) : List Char :=
  let digits := Layout.number.write x.shortest
  if x.negative then '-' :: digits else digits

/-- Any value as text. -/
def Binary64.Extended.write : Binary64.Extended → List Char
  | .finite x => x.write
  | .infinite false => ['i', 'n', 'f']
  | .infinite true => ['-', 'i', 'n', 'f']
  | .nan => ['n', 'a', 'n']

end EditableTemplate
