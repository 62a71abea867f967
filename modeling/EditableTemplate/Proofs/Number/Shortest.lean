import EditableTemplate.Proofs.Number.Rounding

/-!
# The shortest decimal rounds to its value

The search for a decimal of few digits takes only decimals in the neighborhood of the value
(`Neighborhood.contains_decimal?`), and it succeeds with seventeen digits at the latest: the value
then has at least ten to the sixteenth units, and since it has less than two to the fifty-fifth
quarters of its own unit, one of the whole numbers next to it is nearer than either bound
(`Neighborhood.Wide.exists_nearest?`). So a value is the one that its shortest decimal is rounded to
(`Binary64.ofDecimal_of_worth`).
-/

namespace EditableTemplate

/-- Without its trailing zeros a decimal is worth the same. -/
theorem Decimal.worth_trimmed (coefficient : Nat) (exponent : Int) :
    (trimmed coefficient exponent).worth = coefficient * 10 ^ exponent := by
  induction coefficient, exponent using Decimal.trimmed.induct with
  | case1 coefficient exponent trailing ih =>
      have shorter : coefficient = coefficient / 10 * 10 := by omega
      rw [trimmed, if_pos trailing, ih, zpow_add_one₀ (by norm_num), mul_comm ((10 : ℚ) ^ exponent),
        ← mul_assoc]
      norm_cast
      rw [← shorter]
  | case2 coefficient exponent last => rw [trimmed, if_neg last, worth]

namespace Neighborhood

variable {near : Neighborhood}

/-- What holds lies between the bounds, and strictly so unless they are included. -/
theorem holds_iff {coefficient : Nat} : near.holds coefficient = true ↔
    near.low ≤ coefficient * near.denominator ∧ coefficient * near.denominator ≤ near.high ∧
      (near.closed = true ∨
        near.low < coefficient * near.denominator ∧
          coefficient * near.denominator < near.high) := by
  unfold holds
  cases near.closed with
  | true => simp
  | false =>
      simp only [Bool.false_eq_true, if_false, false_or, Bool.and_eq_true, decide_eq_true_eq]
      omega

/-- A whole number of units that holds is in the neighborhood. -/
theorem contains_of_holds {coefficient : Nat} {exponent : Int}
    (holds : (near.inUnits exponent).holds coefficient = true) :
    near.Contains (Decimal.worth ⟨coefficient, exponent⟩) := by
  have positive : (0 : ℚ) < (tenPow (-exponent).toNat : ℕ) := by exact_mod_cast tenPow_pos _
  have place : Decimal.worth ⟨coefficient, exponent⟩ * near.denominator =
      (coefficient * (near.denominator * tenPow exponent.toNat) : ℕ) /
        (tenPow (-exponent).toNat : ℕ) := by
    rw [Decimal.worth_eq_div, div_mul_eq_mul_div]
    push_cast
    ring
  have below : ∀ bound : Nat,
      bound ≤ Decimal.worth ⟨coefficient, exponent⟩ * near.denominator ↔
        bound * tenPow (-exponent).toNat ≤
          coefficient * (near.denominator * tenPow exponent.toNat) := by
    intro bound
    rw [place, le_div_iff₀ positive]
    norm_cast
  have above : ∀ bound : Nat,
      Decimal.worth ⟨coefficient, exponent⟩ * near.denominator ≤ bound ↔
        coefficient * (near.denominator * tenPow exponent.toNat) ≤
          bound * tenPow (-exponent).toNat := by
    intro bound
    rw [place, div_le_iff₀ positive]
    norm_cast
  obtain ⟨low, high, tie⟩ := holds_iff.mp holds
  refine ⟨(below near.low).mpr low, (above near.high).mpr high, ?_⟩
  rcases tie with closed | ⟨lower, higher⟩
  · exact .inl closed
  · right
    constructor
    · exact not_le.mp ((not_congr (above near.low)).mpr (not_le.mpr lower))
    · exact not_le.mp ((not_congr (below near.high)).mpr (not_le.mpr higher))

/-- One of the whole numbers next to the value is taken if one of them holds. -/
theorem nearest?_eq_some_iff :
    (∃ coefficient, near.nearest? = some coefficient) ↔
      near.holds (near.center / near.denominator) = true ∨
        near.holds (near.center / near.denominator + 1) = true := by
  unfold nearest?
  cases first : near.holds (near.center / near.denominator) <;>
    cases second : near.holds (near.center / near.denominator + 1) <;> simp [first, second]

/-- The coefficient that is taken holds. -/
theorem holds_nearest? {coefficient : Nat} (found : near.nearest? = some coefficient) :
    near.holds coefficient = true := by
  unfold nearest? at found
  simp only at found
  split at found
  · rw [← Option.some.inj found]
    split <;> assumption
  · rw [← Option.some.inj found]
    assumption
  · rw [← Option.some.inj found]
    assumption
  · cases found

/-- A decimal that is found is in the neighborhood. -/
theorem contains_decimal? {digits : Nat} {decimal : Decimal}
    (found : near.decimal? digits = some decimal) : near.Contains decimal.worth := by
  obtain ⟨coefficient, nearest, rfl⟩ := Option.map_eq_some_iff.mp found
  rw [Decimal.worth_trimmed]
  exact contains_of_holds (holds_nearest? nearest)

/-! ## Seventeen digits -/

/-- Neither bound is nearer to the value than the part of it that an odd unit makes. -/
structure Wide (near : Neighborhood) : Prop where
  low : near.center + twoPow 54 * near.low ≤ twoPow 54 * near.center
  high : near.center + twoPow 54 * near.center ≤ twoPow 54 * near.high

/-- The neighborhood of every value is wide. -/
theorem wide_of (x : Binary64) : (of x).Wide := by
  have short := x.significand_lt
  have bits : twoPow 52 = 4503599627370496 ∧ twoPow 53 = 9007199254740992 ∧
      twoPow 54 = 18014398509481984 := by decide
  obtain ⟨normal, longest, part⟩ := bits
  have below : 4 * x.significand +
      twoPow 54 * (4 * x.significand - x.quartersBelow) ≤ twoPow 54 * (4 * x.significand) := by
    unfold Binary64.quartersBelow
    rw [part]
    split <;> omega
  have above : 4 * x.significand + twoPow 54 * (4 * x.significand) ≤
      twoPow 54 * (4 * x.significand + 2) := by
    rw [part]
    omega
  obtain ⟨factor, low, center, high⟩ : ∃ factor,
      (of x).low = (4 * x.significand - x.quartersBelow) * factor ∧
        (of x).center = 4 * x.significand * factor ∧
        (of x).high = (4 * x.significand + 2) * factor := ⟨_, rfl, rfl, rfl⟩
  have lower := Nat.mul_le_mul_right factor below
  have higher := Nat.mul_le_mul_right factor above
  rw [Nat.add_mul, Nat.mul_assoc (twoPow 54), Nat.mul_assoc (twoPow 54)] at lower higher
  rw [← low, ← center] at lower
  rw [← high, ← center] at higher
  exact ⟨lower, higher⟩

/-- A wide neighborhood is wide in units of every size. -/
theorem Wide.inUnits (wide : near.Wide) (exponent : Int) : (near.inUnits exponent).Wide := by
  obtain ⟨low, high⟩ := wide
  constructor
  · have product := Nat.mul_le_mul_right (tenPow (-exponent).toNat) low
    rw [Nat.add_mul, Nat.mul_assoc, Nat.mul_assoc] at product
    exact product
  · have product := Nat.mul_le_mul_right (tenPow (-exponent).toNat) high
    rw [Nat.add_mul, Nat.mul_assoc, Nat.mul_assoc] at product
    exact product

/-- With so many units to the value, one of the whole numbers next to it holds. -/
theorem Wide.exists_nearest? (wide : near.Wide) (positive : 0 < near.denominator)
    (many : tenPow 16 * near.denominator ≤ near.center) :
    ∃ coefficient, near.nearest? = some coefficient := by
  obtain ⟨low, high⟩ := wide
  have bits : twoPow 54 = 18014398509481984 := by decide
  have digits : tenPow 16 = 10000000000000000 := by decide
  have split : near.denominator * (near.center / near.denominator) +
      near.center % near.denominator = near.center := Nat.div_add_mod ..
  have rest : near.center % near.denominator < near.denominator := Nat.mod_lt _ positive
  rw [nearest?_eq_some_iff, holds_iff, holds_iff, Nat.succ_mul]
  rw [Nat.mul_comm] at split
  rw [bits] at low high
  rw [digits] at many
  by_cases nearer : 2 * (near.center % near.denominator) ≤ near.denominator
  · left
    omega
  · right
    omega

/-- Measured in units of which seventeen digits are wanted, the value has that many. -/
theorem many_inUnits (positive : 0 < near.denominator) (present : 0 < near.center) :
    tenPow 16 * (near.inUnits (near.order - 17)).denominator ≤
      (near.inUnits (near.order - 17)).center := by
  change tenPow 16 * (near.denominator * tenPow (near.order - 17).toNat) ≤
    near.center * tenPow (-(near.order - 17)).toNat
  unfold order
  by_cases whole : near.denominator ≤ near.center
  · have digits := Digits.tenPow_count_le (Nat.div_pos whole positive).ne'
    have some := Digits.count_pos (near.center / near.denominator)
    rw [Nat.le_div_iff_mul_le positive] at digits
    rw [if_pos whole]
    generalize Digits.count (near.center / near.denominator) = count at digits some ⊢
    have exponents : 16 + ((count : Int) - 17).toNat =
        count - 1 + (-((count : Int) - 17)).toNat := by omega
    calc tenPow 16 * (near.denominator * tenPow ((count : Int) - 17).toNat)
        = tenPow (16 + ((count : Int) - 17).toNat) * near.denominator := by
          rw [tenPow_add]
          ring
      _ = tenPow (count - 1) * near.denominator * tenPow (-((count : Int) - 17)).toNat := by
          rw [exponents, tenPow_add]
          ring
      _ ≤ near.center * tenPow (-((count : Int) - 17)).toNat := Nat.mul_le_mul_right _ digits
  · have digits := Digits.lt_tenPow_count ((near.denominator - 1) / near.center)
    rw [Nat.div_lt_iff_lt_mul present] at digits
    rw [if_neg whole]
    generalize Digits.count ((near.denominator - 1) / near.center) = count at digits ⊢
    have up : (1 - (count : Int) - 17).toNat = 0 := by omega
    have down : (-(1 - (count : Int) - 17)).toNat = count + 16 := by omega
    rw [up, down, tenPow_zero, Nat.mul_one]
    calc tenPow 16 * near.denominator
        ≤ tenPow 16 * (tenPow count * near.center) := Nat.mul_le_mul_left _ (by omega)
      _ = near.center * tenPow (count + 16) := by
          rw [tenPow_add]
          ring

/-- Seventeen digits are enough. -/
theorem exists_decimal?_seventeen {x : Binary64} (nonzero : x.significand ≠ 0) :
    ∃ decimal, (of x).decimal? 17 = some decimal := by
  have denominator : 0 < (of x).denominator := twoPow_pos _
  have center : 0 < (of x).center :=
    Nat.mul_pos (Nat.mul_pos (by decide) (Nat.pos_of_ne_zero nonzero)) (twoPow_pos _)
  have unit : 0 < ((of x).inUnits ((of x).order - 17)).denominator :=
    Nat.mul_pos denominator (tenPow_pos _)
  obtain ⟨coefficient, nearest⟩ := ((wide_of x).inUnits ((of x).order - 17)).exists_nearest? unit
    (many_inUnits denominator center)
  exact ⟨_, Option.map_eq_some_iff.mpr ⟨coefficient, nearest, rfl⟩⟩

end Neighborhood

namespace Binary64

variable {x : Binary64}

/-- The shortest decimal is in the neighborhood of its value. -/
theorem contains_shortest (nonzero : x.significand ≠ 0) :
    (Neighborhood.of x).Contains x.shortest.worth := by
  obtain ⟨longest, found⟩ := Neighborhood.exists_decimal?_seventeen nonzero
  unfold shortest
  rw [if_neg nonzero]
  cases first : (List.range' 1 sufficientDigits).findSome? (Neighborhood.of x).decimal? with
  | none =>
      have none := List.findSome?_eq_none_iff.mp first 17 (by decide)
      cases found.symm.trans none
  | some decimal =>
      obtain ⟨digits, _, taken⟩ := List.exists_of_findSome?_eq_some first
      exact Neighborhood.contains_decimal? taken

/-- A value whose significand is zero is a zero. -/
theorem eq_zero_of_significand (none : x.significand = 0) : x = zero x.negative := by
  have least : x.scale = 0 := by
    apply x.normal.resolve_right
    rw [none]
    exact not_le.mpr (twoPow_pos 52)
  cases x
  cases none
  cases least
  rfl

/-- **The shortest decimal is rounded to its value**, and so is any other of the same worth. -/
theorem ofDecimal_of_worth {decimal : Decimal} (same : decimal.worth = x.shortest.worth) :
    ofDecimal x.negative decimal.coefficient decimal.exponent = some x := by
  by_cases nonzero : x.significand = 0
  · have digits : x.shortest = ⟨0, 0⟩ := if_pos nonzero
    have nothing : decimal.coefficient = 0 := by
      have worth : decimal.worth = 0 := by
        rw [same, digits, Decimal.worth, Nat.cast_zero, zero_mul]
      rcases mul_eq_zero.mp worth with coefficient | power
      · exact Nat.cast_eq_zero.mp coefficient
      · exact (zpow_ne_zero _ (by decide) power).elim
    rw [nothing]
    exact congrArg some (eq_zero_of_significand nonzero).symm
  · apply ofDecimal_eq nonzero
    rw [same]
    exact contains_shortest nonzero

end Binary64

end EditableTemplate
