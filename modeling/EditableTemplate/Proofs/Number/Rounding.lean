import EditableTemplate.Number.Shortest
import EditableTemplate.Proofs.Number.Worth
import Mathlib.Tactic.Linarith
import Mathlib.Tactic.Positivity
import Mathlib.Tactic.Ring

/-!
# Rounding to a binary value

Around every binary value lie the numbers that round to it, up to the midpoints between it and its
neighbours (`Neighborhood.Contains`). A quotient among them is rounded to the value
(`Binary64.ofRatio_eq`), also just below a power of two, where the values lie twice as close and the
rounded significand is one too long. So is a decimal among them (`Binary64.ofDecimal_eq`): none of
these is so great or so small that its rounding is not computed.
-/

namespace EditableTemplate

theorem tenPow_eq (exponent : Nat) : tenPow exponent = 10 ^ exponent :=
  rfl

theorem tenPow_add (first second : Nat) :
    tenPow (first + second) = tenPow first * tenPow second :=
  pow_add 10 first second

theorem tenPow_le {first second : Nat} (least : first ≤ second) :
    tenPow first ≤ tenPow second :=
  Nat.pow_le_pow_right (by decide) least

theorem tenPow_pos (exponent : Nat) : 0 < tenPow exponent :=
  Nat.pow_pos (by decide)

namespace Digits

theorem count_pos (number : Nat) : 0 < count number :=
  Nat.length_toDigits_pos

/-- A number is below the power of ten that its count of digits gives. -/
theorem lt_tenPow_count (number : Nat) : number < tenPow (count number) :=
  (Nat.length_toDigits_le_iff (by decide) (count_pos number)).mp le_rfl

/-- A number other than zero is not below the power of ten of one digit less. -/
theorem tenPow_count_le {number : Nat} (nonzero : number ≠ 0) :
    tenPow (count number - 1) ≤ number := by
  by_cases single : count number - 1 = 0
  · rw [single, tenPow_zero]
    omega
  · by_contra less
    have fewer : count number ≤ count number - 1 :=
      (Nat.length_toDigits_le_iff (by decide) (by omega)).mpr (not_le.mp less)
    omega

end Digits

namespace Binary64

/-- A quotient is rounded to a number that is at most a half away, and less unless it is even. -/
theorem roundDiv_eq {numerator denominator result : Nat} (positive : 0 < denominator)
    (low : 2 * (result * denominator) ≤ 2 * numerator + denominator)
    (high : 2 * numerator ≤ 2 * (result * denominator) + denominator)
    (tie : result % 2 = 0 ∨ 2 * (result * denominator) < 2 * numerator + denominator ∧
      2 * numerator < 2 * (result * denominator) + denominator) :
    roundDiv numerator denominator = result := by
  have split : denominator * (numerator / denominator) + numerator % denominator = numerator :=
    Nat.div_add_mod numerator denominator
  have rest : numerator % denominator < denominator := Nat.mod_lt _ positive
  unfold roundDiv
  generalize numerator / denominator = quotient at split ⊢
  generalize numerator % denominator = remainder at split rest ⊢
  rw [Nat.mul_comm] at split
  have above : quotient ≤ result := by
    by_contra less
    have grown := Nat.mul_le_mul_right denominator (Nat.succ_le_of_lt (not_le.mp less))
    rw [Nat.succ_mul] at grown
    omega
  have below : result ≤ quotient + 1 := by
    by_contra more
    have grown := Nat.mul_le_mul_right denominator (Nat.succ_le_of_lt (not_le.mp more))
    rw [Nat.succ_mul, Nat.succ_mul] at grown
    omega
  by_cases same : result = quotient
  · subst same
    rw [if_neg (by omega)]
  · have next : result = quotient + 1 := by omega
    have product : result * denominator = quotient * denominator + denominator := by
      rw [next, Nat.succ_mul]
    rw [if_pos (by omega), next]

/-- The scale is the one at which a magnitude has at most 53 bits, and not less unless it is the
least one. -/
theorem scaleOf_eq {units scale : Nat} (least : scale = 0 ∨ twoPow (52 + scale) ≤ units)
    (below : units < twoPow (53 + scale)) : scaleOf units = scale := by
  unfold scaleOf
  by_cases zero : scale = 0
  · subst zero
    rw [if_pos below]
  · have long := least.resolve_left zero
    have longest : twoPow 53 ≤ twoPow (52 + scale) := twoPow_le (by omega)
    have positive := twoPow_pos 53
    have nonzero : units ≠ 0 := by omega
    have bits : units.log2 = 52 + scale :=
      (Nat.log2_eq_iff nonzero).mpr ⟨long, by rw [Nat.add_right_comm]; exact below⟩
    rw [if_neg (by omega), bits, Nat.add_sub_cancel_left]

/-- A value is made of its parts. -/
theorem ofParts?_eq (x : Binary64) : ofParts? x.negative x.significand x.scale = some x := by
  unfold ofParts?
  rw [dif_pos ⟨x.significand_lt, x.scale_le, x.normal⟩]

/-- How many quarters of a unit lie between a value and the midpoint to the next smaller one. -/
def quartersBelow (x : Binary64) : Nat :=
  if x.significand = twoPow 52 ∧ x.scale ≠ 0 then 1 else 2

/-- A quotient of least units lies between the midpoints around a magnitude, the midpoints included
if the significand is even. -/
structure Attracts (x : Binary64) (numerator denominator : Nat) : Prop where
  low : 4 * (x.significand * (denominator * twoPow x.scale)) ≤
    4 * numerator + x.quartersBelow * (denominator * twoPow x.scale)
  high : 4 * numerator ≤
    4 * (x.significand * (denominator * twoPow x.scale)) + 2 * (denominator * twoPow x.scale)
  tie : x.significand % 2 = 0 ∨
    4 * (x.significand * (denominator * twoPow x.scale)) <
      4 * numerator + x.quartersBelow * (denominator * twoPow x.scale) ∧
    4 * numerator <
      4 * (x.significand * (denominator * twoPow x.scale)) + 2 * (denominator * twoPow x.scale)

variable {x : Binary64} {numerator denominator : Nat}

theorem quartersBelow_le (x : Binary64) : x.quartersBelow ≤ 2 := by
  unfold quartersBelow
  split <;> decide

/-- A quotient that a value attracts is below the end of its scale. -/
theorem Attracts.lt (attracts : x.Attracts numerator denominator) (positive : 0 < denominator) :
    numerator < twoPow (53 + x.scale) * denominator := by
  have unit : 0 < denominator * twoPow x.scale := Nat.mul_pos positive (twoPow_pos _)
  have most := Nat.mul_le_mul_right (denominator * twoPow x.scale)
    (Nat.succ_le_of_lt x.significand_lt)
  have regrouped : twoPow (53 + x.scale) * denominator =
      twoPow 53 * (denominator * twoPow x.scale) := by
    rw [twoPow_add, Nat.mul_assoc, Nat.mul_comm (twoPow x.scale)]
  have high := attracts.high
  rw [Nat.succ_mul] at most
  omega

/-- The quotient reaches the least significand of 53 bits, if it has to and does not lie just below
a power of two. -/
theorem Attracts.le (attracts : x.Attracts numerator denominator)
    (leads : x.significand = twoPow 52 → x.scale ≠ 0 →
      twoPow (52 + x.scale) * denominator ≤ numerator) (nonzero : x.scale ≠ 0) :
    twoPow (52 + x.scale) * denominator ≤ numerator := by
  by_cases leading : x.significand = twoPow 52
  · exact leads leading nonzero
  · have long : twoPow 52 + 1 ≤ x.significand := by
      have least := x.normal.resolve_left nonzero
      omega
    have product := Nat.mul_le_mul_right (denominator * twoPow x.scale) long
    have regrouped : twoPow (52 + x.scale) * denominator =
        twoPow 52 * (denominator * twoPow x.scale) := by
      rw [twoPow_add, Nat.mul_assoc, Nat.mul_comm (twoPow x.scale)]
    have quarters := Nat.mul_le_mul_right (denominator * twoPow x.scale) x.quartersBelow_le
    have low := attracts.low
    rw [Nat.succ_mul] at product
    omega

/-- A quotient is rounded to the significand at the scale of the value. -/
theorem Attracts.roundDiv_eq (attracts : x.Attracts numerator denominator)
    (positive : 0 < denominator) :
    roundDiv numerator (denominator * twoPow x.scale) = x.significand := by
  have quarters := Nat.mul_le_mul_right (denominator * twoPow x.scale) x.quartersBelow_le
  obtain ⟨low, high, tie⟩ := attracts
  apply Binary64.roundDiv_eq (Nat.mul_pos positive (twoPow_pos _))
  · omega
  · omega
  · rcases tie with even | strict
    · exact .inl even
    · right
      omega

/-- Just below a power of two the significand at the scale below is rounded up to 54 bits. -/
theorem Attracts.roundDiv_carry (attracts : x.Attracts numerator denominator)
    (positive : 0 < denominator) (leading : x.significand = twoPow 52) {scale : Nat}
    (next : x.scale = scale + 1) (small : numerator < twoPow (52 + x.scale) * denominator) :
    twoPow (52 + scale) * denominator ≤ numerator ∧
      roundDiv numerator (denominator * twoPow scale) = twoPow 53 := by
  have quarters : x.quartersBelow = 1 := if_pos ⟨leading, by omega⟩
  have low := attracts.low
  have double : denominator * twoPow (scale + 1) = 2 * (denominator * twoPow scale) := by
    rw [twoPow_succ]
    ring
  have upper : twoPow (52 + (scale + 1)) * denominator =
      twoPow 53 * (denominator * twoPow scale) := by
    have exponents : 52 + (scale + 1) = 53 + scale := by omega
    rw [exponents, twoPow_add, Nat.mul_assoc, Nat.mul_comm (twoPow scale)]
  have lower : twoPow (52 + scale) * denominator = twoPow 52 * (denominator * twoPow scale) := by
    rw [twoPow_add, Nat.mul_assoc, Nat.mul_comm (twoPow scale)]
  have long : twoPow 52 = 4503599627370496 := by decide
  have longest : twoPow 53 = 9007199254740992 := by decide
  rw [quarters, leading, next, double, long] at low
  rw [next, upper, longest] at small
  have unit : 0 < denominator * twoPow scale := Nat.mul_pos positive (twoPow_pos _)
  rw [lower, long, longest]
  refine ⟨by omega, Binary64.roundDiv_eq unit ?_ ?_ (.inl (by decide))⟩ <;> omega

/-- **Rounding a quotient.** A quotient that a value attracts is rounded to the value. -/
theorem ofRatio_eq (positive : 0 < denominator)
    (attracts : x.Attracts (numerator * twoPow unitExponent) denominator) :
    ofRatio x.negative numerator denominator = some x := by
  have below := attracts.lt positive
  unfold ofRatio
  generalize numerator * twoPow unitExponent = units at attracts below ⊢
  have bounded : ∀ {bits}, units < twoPow bits * denominator → units / denominator < twoPow bits :=
    fun less => (Nat.div_lt_iff_lt_mul positive).mpr less
  by_cases carry : x.significand = twoPow 52 ∧ x.scale ≠ 0 ∧
      units < twoPow (52 + x.scale) * denominator
  · obtain ⟨leading, nonzero, small⟩ := carry
    obtain ⟨scale, next⟩ := Nat.exists_eq_succ_of_ne_zero nonzero
    obtain ⟨large, rounded⟩ := attracts.roundDiv_carry positive leading next small
    have exponents : 52 + x.scale = 53 + scale := by omega
    rw [exponents] at small
    have found : scaleOf (units / denominator) = scale :=
      scaleOf_eq (.inr ((Nat.le_div_iff_mul_le positive).mpr large)) (bounded small)
    simp only [found, rounded, if_true]
    rw [← leading, ← Nat.succ_eq_add_one, ← next, ofParts?_eq]
  · have least : x.scale = 0 ∨ twoPow (52 + x.scale) ≤ units / denominator := by
      by_cases zero : x.scale = 0
      · exact .inl zero
      · right
        apply (Nat.le_div_iff_mul_le positive).mpr
        apply attracts.le _ zero
        intro leading nonzero
        by_contra small
        exact carry ⟨leading, nonzero, not_le.mp small⟩
    have short := x.significand_lt
    have found : scaleOf (units / denominator) = x.scale := scaleOf_eq least (bounded below)
    simp only [found, attracts.roundDiv_eq positive]
    rw [if_neg (by omega), ofParts?_eq]

end Binary64

/-- A number lies between the midpoints around a value, the midpoints included if they round to the
value too. -/
structure Neighborhood.Contains (near : Neighborhood) (number : ℚ) : Prop where
  low : near.low ≤ number * near.denominator
  high : number * near.denominator ≤ near.high
  tie : near.closed = true ∨
    near.low < number * near.denominator ∧ number * near.denominator < near.high

namespace Binary64

/-- What is multiplied by a power of two and what is divided by one balance each other. -/
theorem scaled_balance (least scale : Nat) :
    twoPow (scale - (least + 2)) * (4 * twoPow least) =
      twoPow (least + 2 - scale) * twoPow scale := by
  have quarters : twoPow (least + 2) = 4 * twoPow least := by
    rw [twoPow_add, Nat.mul_comm]
    rfl
  rw [← quarters, ← twoPow_add, ← twoPow_add]
  congr 1
  omega

/-- A bound of a quotient, in the form that neighborhoods have, is one in least units. -/
theorem scaled_iff (least scale numerator count : Nat) {denominator : Nat}
    (positive : 0 < denominator) :
    (((count * twoPow (scale - (least + 2)) : ℕ) : ℚ) ≤
        numerator / denominator * (twoPow (least + 2 - scale) : ℕ) ↔
      count * (denominator * twoPow scale) ≤ 4 * (numerator * twoPow least)) ∧
    ((numerator : ℚ) / denominator * (twoPow (least + 2 - scale) : ℕ) ≤
        ((count * twoPow (scale - (least + 2)) : ℕ) : ℚ) ↔
      4 * (numerator * twoPow least) ≤ count * (denominator * twoPow scale)) := by
  have balance := scaled_balance least scale
  have positive' : (0 : ℚ) < denominator := by exact_mod_cast positive
  have unit : 0 < 4 * twoPow least := Nat.mul_pos (by decide) (twoPow_pos least)
  have factor : 0 < twoPow (least + 2 - scale) := twoPow_pos _
  generalize twoPow (scale - (least + 2)) = up at balance ⊢
  generalize twoPow (least + 2 - scale) = down at balance factor ⊢
  have bound : count * up * denominator * (4 * twoPow least) =
      down * (count * (denominator * twoPow scale)) := by
    calc count * up * denominator * (4 * twoPow least)
        = count * denominator * (up * (4 * twoPow least)) := by ring
      _ = down * (count * (denominator * twoPow scale)) := by rw [balance]; ring
  have place : numerator * down * (4 * twoPow least) =
      down * (4 * (numerator * twoPow least)) := by ring
  rw [div_mul_eq_mul_div, le_div_iff₀ positive', div_le_iff₀ positive']
  norm_cast
  constructor
  · rw [← Nat.mul_le_mul_right_iff unit, bound, place, Nat.mul_le_mul_left_iff factor]
  · rw [← Nat.mul_le_mul_right_iff unit, bound, place, Nat.mul_le_mul_left_iff factor]

variable {x : Binary64} {numerator denominator : Nat}

/-- A value attracts the quotients in its neighborhood. -/
theorem attracts_of_contains (nonzero : x.significand ≠ 0) (positive : 0 < denominator)
    (contained : (Neighborhood.of x).Contains (numerator / denominator)) :
    x.Attracts (numerator * twoPow unitExponent) denominator := by
  have below := (scaled_iff unitExponent x.scale numerator
    (4 * x.significand - x.quartersBelow) positive)
  have above := (scaled_iff unitExponent x.scale numerator (4 * x.significand + 2) positive)
  have most := x.quartersBelow_le
  have least : (4 * x.significand - x.quartersBelow) * (denominator * twoPow x.scale) +
      x.quartersBelow * (denominator * twoPow x.scale) =
        4 * (x.significand * (denominator * twoPow x.scale)) := by
    rw [← Nat.add_mul, Nat.sub_add_cancel (by omega), Nat.mul_assoc]
  have greatest : (4 * x.significand + 2) * (denominator * twoPow x.scale) =
      4 * (x.significand * (denominator * twoPow x.scale)) +
        2 * (denominator * twoPow x.scale) := by
    rw [Nat.add_mul, Nat.mul_assoc]
  rw [greatest] at above
  obtain ⟨low, high, tie⟩ := contained
  have low' := below.1.mp low
  have high' := above.2.mp high
  refine ⟨by omega, high', ?_⟩
  rcases tie with closed | ⟨lower, higher⟩
  · exact .inl (of_decide_eq_true closed)
  · have lower' := (not_congr below.2).mp (not_le.mpr lower)
    have higher' := (not_congr above.1).mp (not_le.mpr higher)
    right
    omega

end Binary64

/-- What a decimal is worth. -/
def Decimal.worth (decimal : Decimal) : ℚ :=
  decimal.coefficient * 10 ^ decimal.exponent

/-- The worth of a decimal is a quotient of whole numbers. -/
theorem Decimal.worth_eq_div (decimal : Decimal) :
    decimal.worth = ((decimal.coefficient * tenPow decimal.exponent.toNat : ℕ) : ℚ) /
      (tenPow (-decimal.exponent).toNat : ℕ) := by
  unfold worth
  rw [tenPow_eq, tenPow_eq]
  push_cast
  rcases Int.le_total 0 decimal.exponent with high | low
  · have none : (-decimal.exponent).toNat = 0 := by omega
    rw [none, pow_zero, div_one, ← zpow_natCast, Int.toNat_of_nonneg high]
  · have none : decimal.exponent.toNat = 0 := by omega
    have back : decimal.exponent = -((-decimal.exponent).toNat : ℤ) := by omega
    rw [none, pow_zero, mul_one, div_eq_mul_inv, ← zpow_natCast, ← zpow_neg, ← back]

namespace Binary64

variable {x : Binary64}

/-- A quotient that a value attracts is below the first power of two that is too great. -/
theorem Attracts.lt_greatest {numerator denominator : Nat} (positive : 0 < denominator)
    (attracts : x.Attracts (numerator * twoPow unitExponent) denominator) :
    numerator < twoPow 1024 * denominator := by
  have below := attracts.lt positive
  have regrouped : twoPow (53 + 2045) = twoPow 1024 * twoPow unitExponent :=
    twoPow_add 1024 unitExponent
  have most : twoPow (53 + x.scale) ≤ twoPow (53 + 2045) :=
    twoPow_le (Nat.add_le_add_left x.scale_le 53)
  have bound : numerator * twoPow unitExponent <
      twoPow 1024 * denominator * twoPow unitExponent := by
    calc numerator * twoPow unitExponent
        < twoPow (53 + x.scale) * denominator := below
      _ ≤ twoPow (53 + 2045) * denominator := Nat.mul_le_mul_right _ most
      _ = twoPow 1024 * denominator * twoPow unitExponent := by
          rw [regrouped, Nat.mul_assoc, Nat.mul_comm (twoPow unitExponent), Nat.mul_assoc]
  exact Nat.lt_of_mul_lt_mul_right bound

/-- A value other than zero attracts nothing below half of the least unit. -/
theorem Attracts.le_least {numerator denominator : Nat} (nonzero : x.significand ≠ 0)
    (attracts : x.Attracts (numerator * twoPow unitExponent) denominator) :
    denominator ≤ numerator * twoPow (unitExponent + 1) := by
  have unit : denominator * 1 ≤ denominator * twoPow x.scale :=
    Nat.mul_le_mul_left denominator (twoPow_pos x.scale)
  have one := Nat.mul_le_mul_right (denominator * twoPow x.scale) (Nat.pos_of_ne_zero nonzero)
  have quarters := Nat.mul_le_mul_right (denominator * twoPow x.scale) x.quartersBelow_le
  have low := attracts.low
  rw [twoPow_succ, ← Nat.mul_assoc]
  omega

/-- No value is so great that a decimal near it is not looked at. -/
theorem order_le {coefficient : Nat} {exponent : Int} (some : coefficient ≠ 0)
    (bounded : coefficient * tenPow exponent.toNat < twoPow 1024 * tenPow (-exponent).toNat) :
    Digits.count coefficient + exponent ≤ 310 := by
  by_contra great
  have digits := Digits.tenPow_count_le some
  have positive := Digits.count_pos coefficient
  have powers : tenPow 310 * tenPow (-exponent).toNat ≤
      coefficient * tenPow exponent.toNat := by
    calc tenPow 310 * tenPow (-exponent).toNat
        = tenPow (310 + (-exponent).toNat) := (tenPow_add ..).symm
      _ ≤ tenPow (Digits.count coefficient - 1 + exponent.toNat) := tenPow_le (by omega)
      _ = tenPow (Digits.count coefficient - 1) * tenPow exponent.toNat := tenPow_add ..
      _ ≤ coefficient * tenPow exponent.toNat := Nat.mul_le_mul_right _ digits
  have greatest : twoPow 1024 ≤ tenPow 310 := by decide +kernel
  have product := Nat.mul_le_mul_right (tenPow (-exponent).toNat) greatest
  omega

/-- No value is so small that a decimal near it is not looked at. -/
theorem le_order {coefficient : Nat} {exponent : Int}
    (bounded : tenPow (-exponent).toNat ≤
      coefficient * tenPow exponent.toNat * twoPow (unitExponent + 1)) :
    -330 ≤ Digits.count coefficient + exponent := by
  by_contra small
  have digits := Digits.lt_tenPow_count coefficient
  have powers : coefficient * tenPow exponent.toNat * tenPow 330 < tenPow (-exponent).toNat := by
    calc coefficient * tenPow exponent.toNat * tenPow 330
        < tenPow (Digits.count coefficient) * tenPow exponent.toNat * tenPow 330 :=
          Nat.mul_lt_mul_of_pos_right (Nat.mul_lt_mul_of_pos_right digits (tenPow_pos _))
            (tenPow_pos _)
      _ = tenPow (Digits.count coefficient + exponent.toNat + 330) := by
          rw [tenPow_add, tenPow_add]
      _ ≤ tenPow (-exponent).toNat := tenPow_le (by omega)
  have least : twoPow (unitExponent + 1) ≤ tenPow 330 := by decide +kernel
  have product := Nat.mul_le_mul_left (coefficient * tenPow exponent.toNat) least
  omega

/-- **Rounding a decimal.** A decimal in the neighborhood of a value is rounded to the value. -/
theorem ofDecimal_eq (nonzero : x.significand ≠ 0) {decimal : Decimal}
    (contained : (Neighborhood.of x).Contains decimal.worth) :
    ofDecimal x.negative decimal.coefficient decimal.exponent = some x := by
  obtain ⟨coefficient, exponent⟩ := decimal
  rw [Decimal.worth_eq_div] at contained
  have attracts : x.Attracts (coefficient * tenPow exponent.toNat * twoPow unitExponent)
      (tenPow (-exponent).toNat) :=
    attracts_of_contains nonzero (tenPow_pos _) contained
  have least := attracts.le_least nonzero
  have some : coefficient ≠ 0 := by
    rintro rfl
    have positive := tenPow_pos (-exponent).toNat
    rw [Nat.zero_mul, Nat.zero_mul] at least
    omega
  have great := order_le some (attracts.lt_greatest (tenPow_pos _))
  have small := le_order least
  have rounded := ofRatio_eq (tenPow_pos _) attracts
  simp only [ofDecimal, some, if_false]
  rw [if_neg (not_lt.mpr great), if_neg (not_lt.mpr small)]
  by_cases high : 0 ≤ exponent
  · have none : (-exponent).toNat = 0 := by omega
    rw [none, tenPow_zero] at rounded
    rw [if_pos high, rounded]
  · have none : exponent.toNat = 0 := by omega
    rw [none, tenPow_zero, Nat.mul_one] at rounded
    rw [if_neg high, rounded]

end Binary64

end EditableTemplate
