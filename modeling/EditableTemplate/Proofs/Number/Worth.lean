import EditableTemplate.Number.Basic
import Mathlib.Algebra.Order.Field.Rat
import Mathlib.Data.Int.Cast.Lemmas

/-!
# What numbers are worth

A number is worth a rational, and two numbers agree exactly if they are worth the same
(`Number.agrees_iff_worth`), so agreement is an equivalence. A finite binary value is determined by
its worth up to the sign of zero (`Binary64.eq_of_units`), and it is worth a whole number exactly if
it is put out as one. So numbers that are worth the same, such as `1` and `1.0`, or `0` and `-0.0`,
have one text in rendered output (`Number.rendered_eq_of_worth`).
-/

namespace EditableTemplate

theorem twoPow_eq (exponent : Nat) : twoPow exponent = 2 ^ exponent :=
  rfl

theorem twoPow_add (first second : Nat) :
    twoPow (first + second) = twoPow first * twoPow second :=
  pow_add 2 first second

theorem twoPow_le {first second : Nat} (least : first ≤ second) :
    twoPow first ≤ twoPow second :=
  Nat.pow_le_pow_right (by decide) least

theorem twoPow_pos (exponent : Nat) : 0 < twoPow exponent :=
  Nat.pow_pos (by decide)

namespace Digits

theorem signed_natAbs (negative : Bool) (magnitude : Nat) :
    (signed negative magnitude).natAbs = magnitude := by
  unfold signed
  split <;> simp

/-- A magnitude that counts whole units has as many of them as its signed value says. -/
theorem signed_mul (negative : Bool) (magnitude unit : Nat) :
    signed negative (magnitude * unit) = signed negative magnitude * unit := by
  unfold signed
  split <;> simp

/-- A number below a power of two has no more digits than the power has bits. -/
theorem fits_of_lt_twoPow {number : Int} {exponent : Nat}
    (bound : number.natAbs < twoPow exponent) (few : exponent ≤ limit) :
    fits number = true := by
  have small : number.natAbs < 10 ^ limit :=
    calc number.natAbs < 2 ^ exponent := bound
      _ ≤ 10 ^ exponent := Nat.pow_le_pow_left (by decide) exponent
      _ ≤ 10 ^ limit := Nat.pow_le_pow_right (by decide) few
  rw [fits, count, decide_eq_true_iff]
  exact (Nat.length_toDigits_le_iff (by decide) (by decide)).mpr small

end Digits

namespace Binary64

variable {x y : Binary64}

/-- What a finite value is worth. -/
def worth (x : Binary64) : ℚ :=
  (if x.negative then -1 else 1) * x.significand * 2 ^ x.scale / 2 ^ unitExponent

/-- The least units of a value count its worth. -/
theorem units_eq_worth (x : Binary64) : (x.units : ℚ) = x.worth * 2 ^ unitExponent := by
  have cancel : x.worth * 2 ^ unitExponent =
      (if x.negative then -1 else 1) * x.significand * 2 ^ x.scale :=
    div_mul_cancel₀ _ (pow_ne_zero _ two_ne_zero)
  rw [cancel, units, magnitude, twoPow_eq, Digits.signed]
  cases x.negative <;> simp

/-- The magnitude decides the significand and the scale: with a greater scale comes a significand of
53 bits, which is more than a smaller scale can make up for. -/
theorem scale_le_of_magnitude (same : x.magnitude = y.magnitude) : y.scale ≤ x.scale := by
  by_contra less
  rw [not_le] at less
  have long : twoPow 52 ≤ y.significand := y.normal.resolve_left (by omega)
  have short := x.significand_lt
  obtain ⟨gap, apart⟩ := Nat.exists_eq_add_of_lt less
  have regrouped : x.significand * twoPow x.scale =
      y.significand * twoPow (gap + 1) * twoPow x.scale := by
    have split : y.scale = gap + 1 + x.scale := by omega
    rw [Nat.mul_assoc, ← twoPow_add, ← split]
    exact same
  have cancelled := Nat.eq_of_mul_eq_mul_right (twoPow_pos x.scale) regrouped
  have doubled : 2 ≤ twoPow (gap + 1) := by
    rw [twoPow_succ]
    have := twoPow_pos gap
    omega
  have grown := Nat.mul_le_mul long doubled
  have longest : twoPow 53 = twoPow 52 * 2 := twoPow_succ 52
  rw [← cancelled] at grown
  omega

/-- A value other than zero is determined by what it counts in least units. -/
theorem eq_of_units (same : x.units = y.units) (nonzero : x.units ≠ 0) : x = y := by
  have magnitudes : x.magnitude = y.magnitude := by
    have absolute := congrArg Int.natAbs same
    rwa [units, units, Digits.signed_natAbs, Digits.signed_natAbs] at absolute
  have scales : x.scale = y.scale :=
    le_antisymm (scale_le_of_magnitude magnitudes.symm) (scale_le_of_magnitude magnitudes)
  have significands : x.significand = y.significand := by
    unfold magnitude at magnitudes
    rw [scales] at magnitudes
    exact Nat.eq_of_mul_eq_mul_right (twoPow_pos _) magnitudes
  have signs : x.negative = y.negative := by
    unfold units at same nonzero
    rw [magnitudes] at same nonzero
    unfold Digits.signed at same nonzero
    cases one : x.negative <;> cases other : y.negative <;>
      simp only [one, other, if_true, if_false, Bool.false_eq_true] at same nonzero ⊢ <;> omega
  cases x
  cases y
  cases signs
  cases significands
  cases scales
  rfl

/-- A value is taken for a whole number exactly if it counts so many whole units. -/
theorem toInt?_eq_some_iff {whole : Int} :
    x.toInt? = some whole ↔ x.units = whole * twoPow unitExponent := by
  have positive := twoPow_pos unitExponent
  unfold toInt? units
  constructor
  · intro taken
    split at taken
    · rename_i exactly
      rw [← Option.some.inj taken, ← Digits.signed_mul,
        Nat.div_mul_cancel (Nat.dvd_of_mod_eq_zero exactly)]
    · cases taken
  · intro counted
    have magnitude : x.magnitude = whole.natAbs * twoPow unitExponent := by
      have absolute := congrArg Int.natAbs counted
      rwa [Digits.signed_natAbs, Int.natAbs_mul, Int.natAbs_natCast] at absolute
    rw [magnitude, Digits.signed_mul] at counted
    have same := Int.eq_of_mul_eq_mul_right (by omega) counted
    rw [magnitude, if_pos (Nat.mul_mod_left ..), Nat.mul_div_cancel _ positive, same]

/-- No finite value is greater than a whole number of few digits. -/
theorem fits_of_toInt? {whole : Int} (taken : x.toInt? = some whole) :
    Digits.fits whole = true := by
  have counted := congrArg Int.natAbs (toInt?_eq_some_iff.mp taken)
  rw [units, Digits.signed_natAbs, Int.natAbs_mul, Int.natAbs_natCast, magnitude] at counted
  have bound : whole.natAbs * twoPow unitExponent < twoPow 53 * twoPow 2045 := by
    rw [← counted]
    exact Nat.mul_lt_mul_of_lt_of_le x.significand_lt (twoPow_le x.scale_le) (twoPow_pos _)
  have regrouped : twoPow 53 * twoPow 2045 = twoPow 1024 * twoPow unitExponent :=
    (twoPow_add 53 2045).symm.trans (twoPow_add 1024 unitExponent)
  rw [regrouped] at bound
  exact Digits.fits_of_lt_twoPow (Nat.lt_of_mul_lt_mul_right bound) (by decide)

end Binary64

namespace Number

variable {first second : Number}

/-- What a number is worth. -/
def worth : Number → ℚ
  | .integer value => value
  | .real value => value.worth

/-- The least units of a number count its worth. -/
theorem units_eq_worth (number : Number) :
    (number.units : ℚ) = number.worth * 2 ^ Binary64.unitExponent := by
  cases number with
  | integer value =>
      rw [units, worth, twoPow_eq]
      push_cast
      rfl
  | real value => exact value.units_eq_worth

/-- Numbers are as many least units exactly if they are worth the same. -/
theorem units_eq_iff_worth : first.units = second.units ↔ first.worth = second.worth := by
  have scaled : (2 : ℚ) ^ Binary64.unitExponent ≠ 0 := pow_ne_zero _ two_ne_zero
  rw [← Int.cast_inj (α := ℚ), units_eq_worth, units_eq_worth]
  exact mul_left_inj' scaled

/-- Numbers agree exactly if they are worth the same. -/
theorem agrees_iff_worth : first.agrees second = true ↔ first.worth = second.worth := by
  rw [agrees_iff, units_eq_iff_worth]

/-- Numbers that are worth the same have the same text in rendered output. -/
theorem rendered_eq_of_worth (same : first.worth = second.worth) :
    first.rendered = second.rendered := by
  have counted := units_eq_iff_worth.mpr same
  have taken : ∀ (x : Binary64) (whole : Int), x.units = whole * twoPow Binary64.unitExponent →
      (real x).rendered = Digits.write whole := by
    intro x whole exactly
    rw [rendered, Binary64.toInt?_eq_some_iff.mpr exactly]
  cases first with
  | integer whole =>
      cases second with
      | integer other =>
          have equal : whole = other := Int.cast_inj.mp same
          rw [equal]
      | real y => exact (taken y whole counted.symm).symm
  | real x =>
      cases second with
      | integer other => exact taken x other counted
      | real y =>
          change x.units = y.units at counted
          cases whole : x.toInt? with
          | some number =>
              have exactly := Binary64.toInt?_eq_some_iff.mp whole
              rw [taken x number exactly, taken y number (counted.symm.trans exactly)]
          | none =>
              -- zero is whole, so here the values themselves are the same
              have nonzero : x.units ≠ 0 := by
                intro zero
                have exactly : x.toInt? = some 0 :=
                  Binary64.toInt?_eq_some_iff.mpr (by rw [zero, Int.zero_mul])
                cases whole.symm.trans exactly
              rw [Binary64.eq_of_units counted nonzero]

/-- Of numbers worth the same, if one can be written the other can. -/
theorem writable_of_worth (same : first.worth = second.worth) (writable : first.writable = true) :
    second.writable = true := by
  cases second with
  | real y => rfl
  | integer other =>
      cases first with
      | integer whole =>
          have equal : whole = other := Int.cast_inj.mp same
          rwa [← equal]
      | real x =>
          exact Binary64.fits_of_toInt?
            (Binary64.toInt?_eq_some_iff.mpr (units_eq_iff_worth.mpr same))

end Number

end EditableTemplate
