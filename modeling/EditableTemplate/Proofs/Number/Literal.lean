import EditableTemplate.Number.Literal
import EditableTemplate.Proofs.Text.Blank
import Mathlib.Algebra.Order.Group.Nat
import Mathlib.Data.Bool.AllAny
import Mathlib.Data.List.Induction

/-!
# Number literals

A literal (`NumberLiteral.WellFormed`), in the digits of any scripts, is split off whatever follows
it, unless that goes on with a digit, a point or an exponent (`NumberLiteral.split?_text`). Numbers
are written in the usual digits (`NumberLiteral.HasForm`): the decimal form of a whole number is
such a literal (`NumberLiteral.ofInt`), and if it has few enough digits its value is the number.
Whatever number a literal stands for has few enough digits to be written
(`NumberLiteral.writable_of_value?`).
-/

namespace EditableTemplate

namespace Text

theorem digitValue?_of_isDigit {c : Char} (digit : c.isDigit = true) :
    digitValue? c = some (c.toNat - '0'.toNat) := by
  obtain ⟨low, high⟩ : 0x30 ≤ c.toNat ∧ c.toNat ≤ 0x39 := Char.isDigit_iff_toNat.mp digit
  have within : (decide (0x30 ≤ c.toNat) && decide (c.toNat < 0x30 + 10)) = true := by
    simp only [Bool.and_eq_true, decide_eq_true_eq]
    omega
  have found : digitZeros.find? (fun start => start ≤ c.toNat && c.toNat < start + 10) =
      some 0x30 := List.find?_cons_of_pos within
  rw [digitValue?, found]
  rfl

/-- The usual digits are digits. -/
theorem isDigit_of_isDigit {c : Char} (digit : c.isDigit = true) : isDigit c = true := by
  rw [isDigit, digitValue?_of_isDigit digit]
  rfl

/-- Below the second zero only the usual digits are digits. -/
theorem isDigit_eq_false {c : Char} (other : c.isDigit = false) (below : c.toNat < 0x660) :
    isDigit c = false := by
  apply Bool.eq_false_iff.mpr
  intro digit
  obtain ⟨value, read⟩ := Option.isSome_iff_exists.mp digit
  obtain ⟨start, found, _⟩ := Option.map_eq_some_iff.mp read
  have within := List.find?_some found
  have zeros : ∀ first ∈ digitZeros, first = 0x30 ∨ 0x660 ≤ first := by decide
  have usual := zeros start (List.mem_of_find?_eq_some found)
  simp only [Bool.and_eq_true, decide_eq_true_eq] at within
  have bounds : 0x30 ≤ c.toNat ∧ c.toNat ≤ 0x39 := by omega
  rw [Char.isDigit_iff_toNat.mpr bounds] at other
  cases other

/-- No digit of any script is blank. -/
theorem isBlank_of_isDigit {c : Char} (digit : isDigit c = true) : isBlank c = false := by
  apply Bool.eq_false_iff.mpr
  intro blank
  obtain ⟨value, read⟩ := Option.isSome_iff_exists.mp digit
  obtain ⟨start, found, _⟩ := Option.map_eq_some_iff.mp read
  obtain ⟨range, listed, low, high⟩ := (Ranges.covers_iff blankRanges c).mp blank
  have within := List.find?_some found
  have apart : ∀ start ∈ digitZeros, ∀ range ∈ blankRanges,
      start + 10 ≤ range.1 ∨ range.2 < start := by decide
  have outside := apart start (List.mem_of_find?_eq_some found) range listed
  simp only [Bool.and_eq_true, decide_eq_true_eq] at within
  omega

end Text

namespace Digits

/-- Every digit of a row of usual ones has its value. -/
theorem filterMap_digitValue? {digits : List Char} (usual : ∀ c ∈ digits, c.isDigit = true) :
    digits.filterMap Text.digitValue? = digits.map fun c => c.toNat - '0'.toNat := by
  induction digits with
  | nil => rfl
  | cons digit rest ih =>
      have first := Text.digitValue?_of_isDigit (usual digit (List.mem_cons_self ..))
      have tail := ih fun c member => usual c (List.mem_cons_of_mem digit member)
      rw [List.filterMap_cons_some first, tail, List.map_cons]

theorem isDigit_of_mem {number : Nat} {c : Char} (member : c ∈ Nat.toDigits 10 number) :
    c.isDigit = true :=
  Nat.isDigit_of_mem_toDigits (by decide) (by decide) member

/-- The digits of a number have the value of the number. -/
theorem value_toDigits (number : Nat) :
    value ((Nat.toDigits 10 number).filterMap Text.digitValue?) = number := by
  rw [filterMap_digitValue? fun _ => isDigit_of_mem, value, List.foldl_map]
  calc (Nat.toDigits 10 number).foldl (fun sum c => sum * 10 + (c.toNat - '0'.toNat)) 0
      = Nat.ofDigitChars 10 (Nat.toDigits 10 number) 0 := by
        rw [Nat.ofDigitChars_eq_foldl]
        simp only [Nat.mul_comm]
    _ = number := Nat.ofDigitChars_ten_toDigits

/-- A whole number that is not too long is read back from its digits. -/
theorem readSigned?_toDigits {number : Int} (few : fits number = true) :
    readSigned? (number < 0) ((Nat.toDigits 10 number.natAbs).filterMap Text.digitValue?) =
      some number := by
  have length : ((Nat.toDigits 10 number.natAbs).filterMap Text.digitValue?).length ≤ limit := by
    rw [filterMap_digitValue? fun _ => isDigit_of_mem, List.length_map]
    exact of_decide_eq_true few
  rw [readSigned?, if_pos length, value_toDigits, signed]
  by_cases negative : number < 0
  · rw [if_pos (decide_eq_true negative)]
    congr 1
    omega
  · rw [if_neg (by simpa using negative)]
    congr 1
    omega

theorem value_concat (digits : List Nat) (last : Nat) :
    value (digits ++ [last]) = value digits * 10 + last := by
  simp [value]

/-- A number of some digits is below that power of ten. -/
theorem value_lt {digits : List Nat} (decimal : ∀ digit ∈ digits, digit < 10) :
    value digits < 10 ^ digits.length := by
  induction digits using List.reverseRecOn with
  | nil => exact Nat.one_pos
  | append_singleton digits last ih =>
      have before := ih fun digit member => decimal digit (List.mem_append_left _ member)
      have small := decimal last (by simp)
      rw [value_concat, List.length_append, List.length_singleton, Nat.pow_succ]
      omega

/-- A number that was read from few enough digits has few enough to be written. -/
theorem fits_of_readSigned? {negative : Bool} {digits : List Nat} {number : Int}
    (decimal : ∀ digit ∈ digits, digit < 10)
    (read : readSigned? negative digits = some number) : fits number = true := by
  unfold readSigned? at read
  split at read
  · rename_i few
    have magnitude : number.natAbs = value digits := by
      rw [← Option.some.inj read, signed]
      split <;> simp
    have bound : value digits < 10 ^ limit :=
      (value_lt decimal).trans_le (Nat.pow_le_pow_right (by decide) few)
    rw [fits, count, decide_eq_true_iff, magnitude]
    exact (Nat.length_toDigits_le_iff (by decide) (by decide)).mpr bound
  · cases read

end Digits

namespace NumberLiteral

/-- A whole number as a literal. -/
def ofInt (number : Int) : NumberLiteral :=
  ⟨number < 0, Nat.toDigits 10 number.natAbs, [], none⟩

theorem text_ofInt (number : Int) : (ofInt number).text = Digits.write number := by
  by_cases negative : number < 0 <;>
    simp [ofInt, NumberLiteral.text, signText, fractionText, exponentText, Digits.write, negative]

theorem value?_ofInt {number : Int} (few : Digits.fits number = true) :
    (ofInt number).value? = some (.integer number) := by
  have read := Digits.readSigned?_toDigits few
  simp only [ofInt, value?, read, Option.map_some]

/-- What a literal stands for has few enough digits to be written. -/
theorem writable_of_value? {literal : NumberLiteral} {number : Number}
    (read : literal.value? = some number) : number.writable = true := by
  unfold value? at read
  split at read
  · obtain ⟨whole, found, rfl⟩ := Option.map_eq_some_iff.mp read
    refine Digits.fits_of_readSigned? ?_ found
    intro digit member
    obtain ⟨c, _, isDigit⟩ := List.mem_filterMap.mp member
    exact Text.digitValue?_lt isDigit
  · obtain ⟨_, _, rfl⟩ := Option.map_eq_some_iff.mp read
    rfl

/-- A number can not go on with what follows. -/
def Ends (rest : List Char) : Prop :=
  ∀ c ∈ rest.head?, Text.isDigit c = false ∧ c ≠ '.' ∧ c ≠ 'e' ∧ c ≠ 'E'

/-- No exponent is split off where a number can not go on. -/
theorem splitExponent_of_ends {rest : List Char} (ends : Ends rest) :
    splitExponent rest = (none, rest) := by
  cases rest with
  | nil => rfl
  | cons marker rest =>
      obtain ⟨-, -, lower, upper⟩ := ends marker rfl
      simp only [splitExponent, lower, upper, or_self, false_and, if_false]

theorem splitSign_of_ne {c : Char} (unsigned : c ≠ '-') (rest : List Char) :
    splitSign (c :: rest) = (false, c :: rest) := by
  unfold splitSign
  split
  · rename_i same
    cases same
    exact (unsigned rfl).elim
  · rfl

/-- A sign is split off digits. -/
theorem splitSign_append (negative : Bool) {unsigned : List Char}
    (starts : ∀ c ∈ unsigned.head?, c ≠ '-') :
    splitSign (signText negative ++ unsigned) = (negative, unsigned) := by
  cases negative with
  | true => rfl
  | false =>
      cases unsigned with
      | nil => rfl
      | cons c rest => exact splitSign_of_ne (starts c rfl) rest

/-- A fraction is split off what goes on with neither a digit nor a point. -/
theorem splitFraction_append {digits rest : List Char}
    (usual : ∀ c ∈ digits, Text.isDigit c = true)
    (ends : ∀ c ∈ rest.head?, Text.isDigit c = false ∧ c ≠ '.') :
    splitFraction (fractionText digits ++ rest) = (digits, rest) := by
  cases digits with
  | nil =>
      rw [fractionText, List.nil_append]
      fun_cases splitFraction rest with
      | case1 => rfl
      | case2 => exact ((ends '.' rfl).2 rfl).elim
      | case3 => rfl
  | cons digit more =>
      obtain ⟨taken, left⟩ := Text.takeWhile_run usual fun c first => (ends c first).1
      simp only [fractionText, List.cons_append, splitFraction]
      rw [← List.cons_append, taken, left, if_neg (List.cons_ne_nil digit more)]

/-- An exponent of ten, in digits of any scripts. -/
structure Exponent.WellFormed (exponent : Exponent) : Prop where
  marker : exponent.marker = 'e' ∨ exponent.marker = 'E'
  sign : exponent.sign = none ∨ exponent.sign = some '-' ∨ exponent.sign = some '+'
  nonempty : exponent.digits ≠ []
  digits : ∀ c ∈ exponent.digits, Text.isDigit c = true

/-- A literal in digits of any scripts. -/
structure WellFormed (literal : NumberLiteral) : Prop where
  nonempty : literal.whole ≠ []
  whole : ∀ c ∈ literal.whole, Text.isDigit c = true
  fraction : ∀ c ∈ literal.fraction, Text.isDigit c = true
  exponent : ∀ exponent ∈ literal.exponent, exponent.WellFormed

/-- An exponent of ten in the usual digits. -/
structure Exponent.HasForm (exponent : Exponent) : Prop where
  marker : exponent.marker = 'e' ∨ exponent.marker = 'E'
  sign : exponent.sign = none ∨ exponent.sign = some '-' ∨ exponent.sign = some '+'
  nonempty : exponent.digits ≠ []
  usual : ∀ c ∈ exponent.digits, c.isDigit = true

/-- A literal in the usual digits. -/
structure HasForm (literal : NumberLiteral) : Prop where
  nonempty : literal.whole ≠ []
  whole : ∀ c ∈ literal.whole, c.isDigit = true
  fraction : ∀ c ∈ literal.fraction, c.isDigit = true
  exponent : ∀ exponent ∈ literal.exponent, exponent.HasForm

theorem Exponent.HasForm.wellFormed {exponent : Exponent} (written : exponent.HasForm) :
    exponent.WellFormed where
  marker := written.marker
  sign := written.sign
  nonempty := written.nonempty
  digits := fun c member => Text.isDigit_of_isDigit (written.usual c member)

/-- The usual digits are digits. -/
theorem HasForm.wellFormed {literal : NumberLiteral} (written : literal.HasForm) :
    literal.WellFormed where
  nonempty := written.nonempty
  whole := fun c member => Text.isDigit_of_isDigit (written.whole c member)
  fraction := fun c member => Text.isDigit_of_isDigit (written.fraction c member)
  exponent := fun exponent given => (written.exponent exponent given).wellFormed

theorem hasForm_ofInt (number : Int) : (ofInt number).HasForm where
  nonempty := Nat.toDigits_ne_nil
  whole := fun _ => Digits.isDigit_of_mem
  fraction := by simp [ofInt]
  exponent := by simp [ofInt]

theorem ne_of_isDigit {c mark : Char} (digit : Text.isDigit c = true)
    (other : Text.isDigit mark = false) : c ≠ mark := by
  rintro rfl
  cases digit.symm.trans other

/-- The sign of a written exponent is split off again. -/
theorem splitExponentSign_append {exponent : Exponent} (formed : exponent.WellFormed)
    (rest : List Char) :
    splitExponentSign (exponent.sign.toList ++ (exponent.digits ++ rest)) =
      (exponent.sign, exponent.digits ++ rest) := by
  rcases formed.sign with none | minus | plus
  · obtain ⟨first, more, digits⟩ := List.exists_cons_of_ne_nil formed.nonempty
    have digit : Text.isDigit first = true := formed.digits first (by simp [digits])
    rw [none, digits]
    change splitExponentSign (first :: (more ++ rest)) = _
    unfold splitExponentSign
    split
    · rename_i same
      exact (ne_of_isDigit digit (by decide) (List.cons.inj same).1).elim
    · rename_i same
      exact (ne_of_isDigit digit (by decide) (List.cons.inj same).1).elim
    · rfl
  · rw [minus]
    rfl
  · rw [plus]
    rfl

/-- An exponent is split off together with all digits that follow. -/
theorem splitExponent_exponentText {exponent : Exponent} (formed : exponent.WellFormed)
    (rest : List Char) :
    splitExponent (exponentText (some exponent) ++ rest) =
      (some ⟨exponent.marker, exponent.sign, exponent.digits ++ rest.takeWhile Text.isDigit⟩,
        rest.dropWhile Text.isDigit) := by
  have taken : (exponent.digits ++ rest).takeWhile Text.isDigit =
      exponent.digits ++ rest.takeWhile Text.isDigit :=
    List.takeWhile_append_of_pos formed.digits
  have left : (exponent.digits ++ rest).dropWhile Text.isDigit = rest.dropWhile Text.isDigit :=
    List.dropWhile_append_of_pos formed.digits
  simp only [exponentText, List.cons_append, List.append_assoc, splitExponent,
    splitExponentSign_append formed, taken, left]
  rw [if_pos ⟨formed.marker, by simp [formed.nonempty]⟩]

/-- An exponent is split off what a number can not go on with. -/
theorem splitExponent_append {exponent : Option Exponent} {rest : List Char}
    (formed : ∀ given ∈ exponent, given.WellFormed) (ends : Ends rest) :
    splitExponent (exponentText exponent ++ rest) = (exponent, rest) := by
  cases exponent with
  | none => exact splitExponent_of_ends ends
  | some given =>
      obtain ⟨taken, left⟩ := Text.takeWhile_outside fun c first => (ends c first).1
      rw [splitExponent_exponentText (formed given rfl), taken, left, List.append_nil]

/-- What an exponent starts with is neither a digit nor a point. -/
theorem head_exponentText_some {exponent : Exponent} (formed : exponent.WellFormed)
    (rest : List Char) :
    ∀ c ∈ (exponentText (some exponent) ++ rest).head?, Text.isDigit c = false ∧ c ≠ '.' := by
  intro c first
  obtain rfl := Option.some.inj first
  rcases formed.marker with lower | upper
  · rw [lower]
    decide
  · rw [upper]
    decide

/-- What follows the fraction starts with neither a digit nor a point. -/
theorem head_exponentText {exponent : Option Exponent} {rest : List Char}
    (formed : ∀ given ∈ exponent, given.WellFormed) (ends : Ends rest) :
    ∀ c ∈ (exponentText exponent ++ rest).head?, Text.isDigit c = false ∧ c ≠ '.' := by
  cases exponent with
  | none =>
      intro c first
      obtain ⟨digit, point, _⟩ := ends c first
      exact ⟨digit, point⟩
  | some given => exact head_exponentText_some (formed given rfl) rest

/-- A literal goes on from its sign with a digit. -/
theorem splitSign_text {literal : NumberLiteral} (formed : literal.WellFormed)
    (rest : List Char) :
    splitSign (literal.text ++ rest) = (literal.negative, literal.whole ++
      (fractionText literal.fraction ++ (exponentText literal.exponent ++ rest))) := by
  have unsigned : ∀ c ∈ (literal.whole ++ (fractionText literal.fraction ++
      (exponentText literal.exponent ++ rest))).head?, c ≠ '-' := by
    obtain ⟨digit, more, whole⟩ := List.exists_cons_of_ne_nil formed.nonempty
    intro c first
    rw [whole] at first
    obtain rfl := Option.some.inj first
    exact ne_of_isDigit (formed.whole _ (by simp [whole])) (by decide)
  have shape : literal.text ++ rest = signText literal.negative ++ (literal.whole ++
      (fractionText literal.fraction ++ (exponentText literal.exponent ++ rest))) := by
    simp [NumberLiteral.text]
  rw [shape, splitSign_append _ unsigned]

/-- What follows the digits before the point starts with no digit. -/
theorem head_fractionText (fraction : List Char) {rest : List Char}
    (ends : ∀ c ∈ rest.head?, Text.isDigit c = false) :
    ∀ c ∈ (fractionText fraction ++ rest).head?, Text.isDigit c = false := by
  cases fraction with
  | nil => exact ends
  | cons digit more =>
      intro c first
      obtain rfl := Option.some.inj first
      decide

/-- **A literal is split off whatever can not go on with it.** -/
theorem split?_text {literal : NumberLiteral} (formed : literal.WellFormed) {rest : List Char}
    (ends : Ends rest) : split? (literal.text ++ rest) = some (literal, rest) := by
  have after := head_exponentText formed.exponent ends
  have onward := head_fractionText literal.fraction fun c first => (after c first).1
  obtain ⟨taken, left⟩ := Text.takeWhile_run formed.whole onward
  simp only [split?, splitSign_text formed, taken, left,
    splitFraction_append formed.fraction after,
    splitExponent_append formed.exponent ends, formed.nonempty, if_false]

/-- A literal has no characters but its digits, and signs, points and the letters of exponents. -/
theorem forall_mem_text {literal : NumberLiteral} (formed : literal.WellFormed) {P : Char → Prop}
    (marks : ∀ c ∈ ['-', '+', '.', 'e', 'E'], P c) (whole : ∀ c ∈ literal.whole, P c)
    (fraction : ∀ c ∈ literal.fraction, P c)
    (exponent : ∀ given ∈ literal.exponent, ∀ c ∈ given.digits, P c) :
    ∀ c ∈ literal.text, P c := by
  intro c member
  rw [NumberLiteral.text, List.mem_append, List.mem_append, List.mem_append] at member
  rcases member with ((sign | inWhole) | inFraction) | inExponent
  · generalize literal.negative = negative at sign
    cases negative with
    | true => exact marks c (by simp [List.mem_singleton.mp sign])
    | false => cases sign
  · exact whole c inWhole
  · have inside : c = '.' ∨ c ∈ literal.fraction := by
      cases digits : literal.fraction with
      | nil =>
          rw [digits] at inFraction
          cases inFraction
      | cons digit more =>
          rw [digits] at inFraction
          exact List.mem_cons.mp inFraction
    rcases inside with rfl | digit
    · exact marks '.' (by decide)
    · exact fraction c digit
  · cases given : literal.exponent with
    | none =>
        rw [given] at inExponent
        cases inExponent
    | some power =>
        obtain ⟨markers, signs, _, _⟩ := formed.exponent power given
        rw [given, exponentText, List.cons_append, List.mem_cons, List.mem_append] at inExponent
        rcases inExponent with rfl | sign | digit
        · rcases markers with lower | upper
          · exact marks _ (by simp [lower])
          · exact marks _ (by simp [upper])
        · rcases signs with none | minus | plus
          · rw [none] at sign
            cases sign
          · rw [minus] at sign
            exact marks c (by simp [List.mem_singleton.mp sign])
          · rw [plus] at sign
            exact marks c (by simp [List.mem_singleton.mp sign])
        · exact exponent power given c digit

/-- A literal in the usual digits stays within one stretch of characters. -/
theorem bounds_of_mem_text {literal : NumberLiteral} (written : literal.HasForm) {c : Char}
    (member : c ∈ literal.text) : '+'.toNat ≤ c.toNat ∧ c.toNat ≤ 'z'.toNat := by
  have usual : ∀ c : Char, c.isDigit = true → '+'.toNat ≤ c.toNat ∧ c.toNat ≤ 'z'.toNat := by
    intro c digit
    obtain ⟨low, high⟩ := Char.isDigit_iff_toNat.mp digit
    exact ⟨Nat.le_trans (by decide) low, Nat.le_trans high (by decide)⟩
  exact forall_mem_text written.wellFormed (List.all_iff_forall_prop.mp (by decide))
    (fun c inside => usual c (written.whole c inside))
    (fun c inside => usual c (written.fraction c inside))
    (fun given present c inside => usual c ((written.exponent given present).usual c inside))
    c member

/-- What holds of all digits, of signs, points and the letters of exponents holds throughout. -/
theorem forall_mem_text_of_digits {literal : NumberLiteral} (formed : literal.WellFormed)
    {P : Char → Prop} (marks : ∀ c ∈ ['-', '+', '.', 'e', 'E'], P c)
    (digits : ∀ c, Text.isDigit c = true → P c) : ∀ c ∈ literal.text, P c :=
  forall_mem_text formed marks (fun c inside => digits c (formed.whole c inside))
    (fun c inside => digits c (formed.fraction c inside))
    (fun given present c inside => digits c ((formed.exponent given present).digits c inside))

/-- A text that starts with neither a minus sign nor a digit starts with no number. -/
theorem split?_eq_none {c : Char} (unsigned : c ≠ '-') (other : Text.isDigit c = false)
    (rest : List Char) : split? (c :: rest) = none := by
  have none : (c :: rest).takeWhile Text.isDigit = [] := by
    rw [List.takeWhile_cons, other]
    rfl
  simp only [split?, splitSign_of_ne unsigned, none, if_true]

end NumberLiteral

end EditableTemplate
