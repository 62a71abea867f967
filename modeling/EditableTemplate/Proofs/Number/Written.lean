import EditableTemplate.Proofs.Number.Literal
import EditableTemplate.Proofs.Number.Shortest

/-!
# Numbers are read back

A literal with a point or an exponent is a decimal (`NumberLiteral.decimal`). What a layout makes of
a decimal is such a literal, of the same worth: the zeros that it adds are worth nothing
(`Layout.exists_literal`). The shortest decimal of a binary value is rounded to the value, so the
text of a value is read as the value again, the sign of zero included
(`Binary64.exists_literal_write`).
-/

namespace EditableTemplate

namespace NumberLiteral

/-! ## Digits -/

/-- Digits behind others shift these by as many places. -/
theorem digitsValue_append (first : List Char) {second : List Char}
    (usual : ∀ c ∈ second, c.isDigit = true) :
    digitsValue (first ++ second) =
      digitsValue first * tenPow second.length + digitsValue second := by
  induction second using List.reverseRecOn with
  | nil => simp [digitsValue, Digits.value, tenPow_zero]
  | append_singleton second last ih =>
      have before := ih fun c member => usual c (List.mem_append_left _ member)
      have digit := Text.digitValue?_of_isDigit (usual last (by simp))
      have step : ∀ digits : List Char, digitsValue (digits ++ [last]) =
          digitsValue digits * 10 + (last.toNat - '0'.toNat) := by
        intro digits
        simp [digitsValue, Digits.value, digit]
      rw [← List.append_assoc, step, step, before, List.length_append, List.length_singleton,
        tenPow_succ]
      ring

theorem isDigit_of_mem_zeros {count : Nat} {c : Char} (member : c ∈ List.replicate count '0') :
    c.isDigit = true := by
  rw [List.eq_of_mem_replicate member]
  decide

theorem digitsValue_zeros (count : Nat) : digitsValue (List.replicate count '0') = 0 := by
  induction count with
  | zero => rfl
  | succ count ih =>
      have zero : digitsValue ['0'] = 0 := by decide
      have usual : ∀ c ∈ ['0'], c.isDigit = true := List.forall_mem_singleton.mpr (by decide)
      rw [List.replicate_succ', digitsValue_append _ usual, ih, zero, Nat.zero_mul]

/-- Zeros after the digits scale them. -/
theorem digitsValue_append_zeros (digits : List Char) (count : Nat) :
    digitsValue (digits ++ List.replicate count '0') = digitsValue digits * tenPow count := by
  rw [digitsValue_append _ fun _ => isDigit_of_mem_zeros, digitsValue_zeros, Nat.add_zero,
    List.length_replicate]

/-- Zeros before the digits are worth nothing. -/
theorem digitsValue_zeros_append (count : Nat) {digits : List Char}
    (usual : ∀ c ∈ digits, c.isDigit = true) :
    digitsValue (List.replicate count '0' ++ digits) = digitsValue digits := by
  rw [digitsValue_append _ usual, digitsValue_zeros, Nat.zero_mul, Nat.zero_add]

/-! ## Decimals as literals -/

/-- The decimal that a literal is. -/
def decimal (literal : NumberLiteral) : Decimal :=
  ⟨digitsValue (literal.whole ++ literal.fraction),
    (literal.exponent.map Exponent.power).getD 0 - literal.fraction.length⟩

/-- A literal with a point or an exponent, of the worth of a decimal. -/
structure Writes (literal : NumberLiteral) (negative : Bool) (written : Decimal) : Prop where
  form : literal.HasForm
  sign : literal.negative = negative
  marked : literal.fraction ≠ [] ∨ literal.exponent ≠ none
  worth : literal.decimal.worth = written.worth

/-- A literal with a point or an exponent is read as a binary value. -/
theorem value?_of_marked {literal : NumberLiteral}
    (marked : literal.fraction ≠ [] ∨ literal.exponent ≠ none) :
    literal.value? = (Binary64.ofDecimal literal.negative literal.decimal.coefficient
      literal.decimal.exponent).map .real := by
  unfold value?
  split
  · rename_i noFraction noExponent
    rcases marked with fraction | exponent
    · exact (fraction noFraction).elim
    · exact (exponent noExponent).elim
  · rfl

/-- A literal with a point is the decimal of all its digits. -/
theorem writes_pointed (negative : Bool) {whole fraction : List Char}
    (nonempty : whole ≠ []) (pointed : fraction ≠ [])
    (usual : ∀ c ∈ whole ++ fraction, c.isDigit = true) :
    Writes ⟨negative, whole, fraction, none⟩ negative
      ⟨digitsValue (whole ++ fraction), -fraction.length⟩ := by
  obtain ⟨inWhole, inFraction⟩ := List.forall_mem_append.mp usual
  refine ⟨⟨nonempty, inWhole, inFraction, nofun⟩, rfl, .inl pointed, ?_⟩
  rw [decimal, Option.map_none, Option.getD_none, zero_sub]

/-- A fraction with digits is written with a point in front of them. -/
theorem fractionText_of_ne_nil {digits : List Char} (nonempty : digits ≠ []) :
    fractionText digits = '.' :: digits := by
  cases digits with
  | nil => exact (nonempty rfl).elim
  | cons digit rest => rfl

/-- A power of ten as the exponent of a literal. -/
def Exponent.ofPower (width : Nat) (power : Int) : Exponent :=
  let digits := Nat.toDigits 10 power.natAbs
  ⟨'e', some (if power < 0 then '-' else '+'),
    List.replicate (width - digits.length) '0' ++ digits⟩

theorem exponentText_ofPower (width : Nat) (power : Int) :
    exponentText (some (.ofPower width power)) = Layout.exponent width power :=
  rfl

theorem Exponent.hasForm_ofPower (width : Nat) (power : Int) : (ofPower width power).HasForm where
  marker := .inl rfl
  sign := by
    right
    by_cases negative : power < 0
    · exact .inl (congrArg some (if_pos negative))
    · exact .inr (congrArg some (if_neg negative))
  nonempty := List.append_ne_nil_of_right_ne_nil _ Nat.toDigits_ne_nil
  usual := List.forall_mem_append.mpr
    ⟨fun _ => isDigit_of_mem_zeros, fun _ => Digits.isDigit_of_mem⟩

theorem Exponent.power_ofPower (width : Nat) (power : Int) :
    (ofPower width power).power = power := by
  have digits : digitsValue (ofPower width power).digits = power.natAbs :=
    (digitsValue_zeros_append _ fun _ => Digits.isDigit_of_mem).trans (Digits.value_toDigits _)
  rw [Exponent.power, digits, Digits.signed]
  by_cases negative : power < 0
  · have sign : (ofPower width power).sign = some '-' := congrArg some (if_pos negative)
    rw [sign, if_pos (by simp)]
    omega
  · have sign : (ofPower width power).sign = some '+' := congrArg some (if_neg negative)
    rw [sign, if_neg (by simp)]
    omega

/-- Zeros at the end of the coefficient stand for powers of ten. -/
theorem worth_append_zeros (digits : List Char) (count : Nat) (exponent : Int) :
    (⟨digitsValue (digits ++ List.replicate count '0'), exponent⟩ : Decimal).worth =
      (⟨digitsValue digits, exponent + count⟩ : Decimal).worth := by
  have ten : (10 : ℚ) ≠ 0 := by decide
  rw [digitsValue_append_zeros, Decimal.worth, Decimal.worth, tenPow_eq, zpow_add₀ ten,
    zpow_natCast]
  push_cast
  ring

end NumberLiteral

namespace Layout

open NumberLiteral

section

variable {digits : List Char} (usual : ∀ c ∈ digits, c.isDigit = true) (nonempty : digits ≠ [])

include usual nonempty

/-- Digits with zeros after them, a point and one more zero are a literal. -/
theorem exists_padded (negative : Bool) {exponent : Int} (high : 0 ≤ exponent) :
    ∃ literal : NumberLiteral, literal.Writes negative ⟨digitsValue digits, exponent⟩ ∧
      literal.text = signText negative ++
        (digits ++ List.replicate exponent.toNat '0' ++ ['.', '0']) := by
  have inside : ∀ c ∈ digits ++ List.replicate exponent.toNat '0' ++ ['0'], c.isDigit = true :=
    List.forall_mem_append.mpr
      ⟨List.forall_mem_append.mpr ⟨usual, fun _ => isDigit_of_mem_zeros⟩,
        List.forall_mem_singleton.mpr (by decide)⟩
  have written := writes_pointed negative (List.append_ne_nil_of_left_ne_nil nonempty _)
    (List.cons_ne_nil '0' []) inside
  refine ⟨_, { written with worth := written.worth.trans ?_ }, ?_⟩
  · -- the zero after the point is a digit of the coefficient like those before it
    rw [List.append_assoc, ← List.replicate_succ', worth_append_zeros]
    congr 2
    simp [high]
  · simp [NumberLiteral.text, fractionText, exponentText]

/-- Digits with a point among them are a literal. -/
theorem exists_parted (negative : Bool) {exponent : Int} (low : exponent < 0) {place : Nat}
    (among : 0 < place) (split : (place : ℤ) = digits.length + exponent) :
    ∃ literal : NumberLiteral, literal.Writes negative ⟨digitsValue digits, exponent⟩ ∧
      literal.text = signText negative ++ (digits.take place ++ '.' :: digits.drop place) := by
  have count : ((digits.drop place).length : ℤ) = -exponent := by
    rw [List.length_drop]
    omega
  have first : digits.take place ≠ [] := by
    rw [ne_eq, List.take_eq_nil_iff, not_or]
    exact ⟨by omega, nonempty⟩
  have second : digits.drop place ≠ [] := by
    rw [← List.length_pos_iff]
    omega
  have written := writes_pointed negative first second (by rwa [List.take_append_drop])
  rw [List.take_append_drop, count, neg_neg] at written
  refine ⟨_, written, ?_⟩
  rw [NumberLiteral.text, fractionText_of_ne_nil second]
  simp [exponentText]

/-- A zero and a point with zeros and digits after it are a literal. -/
theorem exists_preceded (negative : Bool) {exponent : Int} {count : Nat}
    (below : (count : ℤ) = -(digits.length + exponent)) :
    ∃ literal : NumberLiteral, literal.Writes negative ⟨digitsValue digits, exponent⟩ ∧
      literal.text = signText negative ++
        (['0', '.'] ++ List.replicate count '0' ++ digits) := by
  have inside : ∀ c ∈ ['0'] ++ (List.replicate count '0' ++ digits), c.isDigit = true :=
    List.forall_mem_append.mpr
      ⟨List.forall_mem_singleton.mpr (by decide),
        List.forall_mem_append.mpr ⟨fun _ => isDigit_of_mem_zeros, usual⟩⟩
  have second : List.replicate count '0' ++ digits ≠ [] :=
    List.append_ne_nil_of_right_ne_nil _ nonempty
  have written := writes_pointed negative (List.cons_ne_nil '0' []) second inside
  have length : ((List.replicate count '0' ++ digits).length : ℤ) = -exponent := by
    rw [List.length_append, List.length_replicate]
    omega
  have value : digitsValue (['0'] ++ (List.replicate count '0' ++ digits)) = digitsValue digits :=
    digitsValue_zeros_append (count + 1) usual
  rw [length, value, neg_neg] at written
  refine ⟨_, written, ?_⟩
  rw [NumberLiteral.text, fractionText_of_ne_nil second]
  simp [exponentText]

/-- A decimal written with all its places is a literal of its worth. -/
theorem exists_positional (negative : Bool) (exponent : Int) :
    ∃ literal : NumberLiteral, literal.Writes negative ⟨digitsValue digits, exponent⟩ ∧
      literal.text = signText negative ++ positional digits exponent := by
  rw [positional]
  by_cases high : 0 ≤ exponent
  · rw [if_pos high]
    exact exists_padded usual nonempty negative high
  · rw [if_neg high]
    by_cases among : 0 < (digits.length : ℤ) + exponent
    · rw [if_pos among]
      exact exists_parted usual nonempty negative (by omega) (by omega) (by omega)
    · rw [if_neg among]
      exact exists_preceded usual nonempty negative (by omega)

/-- One digit, a point before the others, and an exponent are a literal. -/
theorem exists_scientific (negative : Bool) (width : Nat) (exponent : Int) :
    ∃ literal : NumberLiteral, literal.Writes negative ⟨digitsValue digits, exponent⟩ ∧
      literal.text =
        signText negative ++ scientific width digits (digits.length - 1 + exponent) := by
  obtain ⟨digit, rest, rfl⟩ := List.exists_cons_of_ne_nil nonempty
  obtain ⟨first, others⟩ := List.forall_mem_cons.mp usual
  let power := ((digit :: rest).length : ℤ) - 1 + exponent
  refine ⟨⟨negative, [digit], rest, some (.ofPower width power)⟩,
    ⟨⟨List.cons_ne_nil _ _, ?_, others, ?_⟩, rfl, .inr nofun, ?_⟩, ?_⟩
  · exact List.forall_mem_singleton.mpr first
  · rintro _ ⟨⟩
    exact Exponent.hasForm_ofPower width power
  · rw [decimal, Option.map_some, Option.getD_some, Exponent.power_ofPower]
    simp [power]
  · rw [NumberLiteral.text, exponentText_ofPower]
    cases rest <;> simp [scientific, fractionText, power]

end

/-- **What a layout makes of a decimal is a literal of its worth.** -/
theorem exists_literal (layout : Layout) (negative : Bool) (decimal : Decimal) :
    ∃ literal : NumberLiteral, literal.Writes negative decimal ∧
      literal.text = signText negative ++ layout.write decimal := by
  have usual : ∀ c ∈ Nat.toDigits 10 decimal.coefficient, c.isDigit = true :=
    fun _ => Digits.isDigit_of_mem
  have nonempty : Nat.toDigits 10 decimal.coefficient ≠ [] := Nat.toDigits_ne_nil
  have spelled : digitsValue (Nat.toDigits 10 decimal.coefficient) = decimal.coefficient :=
    Digits.value_toDigits decimal.coefficient
  have whole : (⟨digitsValue (Nat.toDigits 10 decimal.coefficient), decimal.exponent⟩ : Decimal) =
      decimal := by
    rw [spelled]
  rw [write]
  split
  · have written := exists_positional usual nonempty negative decimal.exponent
    rwa [whole] at written
  · have written := exists_scientific usual nonempty negative layout.exponentWidth decimal.exponent
    rwa [whole] at written

end Layout

namespace Binary64

/-- **Binary values are read back.** The text of a value is a literal, and the literal is read as
the value. -/
theorem exists_literal_write (x : Binary64) :
    ∃ literal : NumberLiteral, literal.HasForm ∧ literal.text = x.write ∧
      literal.value? = some (.real x) := by
  obtain ⟨literal, written, text⟩ := Layout.number.exists_literal x.negative x.shortest
  refine ⟨literal, written.form, ?_, ?_⟩
  · rw [text, write]
    cases x.negative <;> rfl
  · rw [NumberLiteral.value?_of_marked written.marked, written.sign,
      ofDecimal_of_worth written.worth]
    rfl

end Binary64

/-- **Numbers are read back.** The text of a number that can be written is a literal, and the
literal is read as the number. -/
theorem Number.exists_literal_shown {number : Number} (writable : number.writable = true) :
    ∃ literal : NumberLiteral, literal.HasForm ∧ literal.text = number.shown ∧
      literal.value? = some number := by
  cases number with
  | integer value =>
      exact ⟨.ofInt value, NumberLiteral.hasForm_ofInt value, NumberLiteral.text_ofInt value,
        NumberLiteral.value?_ofInt writable⟩
  | real value => exact value.exists_literal_write

end EditableTemplate
