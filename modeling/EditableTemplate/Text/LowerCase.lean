/-!
# Lower case

Names in ASCII are compared without regard to letter case. One character outside ASCII has an ASCII
letter as its lower case: the sign of the unit of temperature, which looks like the letter `K`.
-/

namespace EditableTemplate.Text

/-- The lower case of a character, as far as it is in ASCII; any other character stays. -/
def lower (c : Char) : Char :=
  if c.toNat = 0x212A then 'k' else c.toLower

end EditableTemplate.Text
