/-!
# Powers of two and ten

The powers by which binary values and decimals are scaled.
-/

namespace EditableTemplate

/-- A power of two. -/
def twoPow (exponent : Nat) : Nat := Nat.pow 2 exponent

/-- A power of ten. -/
def tenPow (exponent : Nat) : Nat := Nat.pow 10 exponent

/-- The next power of two is twice as great. -/
theorem twoPow_succ (exponent : Nat) : twoPow (exponent + 1) = twoPow exponent * 2 := rfl

/-- The power of ten for zero is one. -/
theorem tenPow_zero : tenPow 0 = 1 := rfl

/-- The next power of ten is ten times as great. -/
theorem tenPow_succ (exponent : Nat) : tenPow (exponent + 1) = tenPow exponent * 10 := rfl

end EditableTemplate
