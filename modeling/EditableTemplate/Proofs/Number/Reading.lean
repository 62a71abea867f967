import EditableTemplate.Number.Reading
import EditableTemplate.Proofs.Number.Written

/-!
# Number literals given as text

Text is read as a number in more forms than a literal has, but a literal is read the same way: its
digits are one run, its point and its exponent are those of a decimal, and its first digit starts no
name of a value that is not finite. So the number is the one that the literal stands for, and none
if that is out of range (`NumberLiteral.WellFormed.number?_text`). The readers part only at a whole
number of too many digits (`NumberLiteral.IsLong`), which is no literal in range but is read as a
decimal (`NumberLiteral.WellFormed.number?_text_of_isLong`).
-/

namespace EditableTemplate

namespace Text

theorem toLower_of_isDigit {c : Char} (digit : isDigit c = true) : c.toLower = c := by
  unfold Char.toLower
  split
  · rename_i upper
    obtain ⟨low, high⟩ := upper
    have other : c.isDigit = false := by
      apply Bool.eq_false_iff.mpr
      intro usual
      have above := (Char.isDigit_iff_toNat.mp usual).2
      have low : 'A'.toNat ≤ c.toNat := UInt32.le_iff_toNat_le.mp low
      exact absurd (Nat.le_trans low above) (by decide)
    have high : c.toNat ≤ 'Z'.toNat := UInt32.le_iff_toNat_le.mp high
    have none := isDigit_eq_false other (Nat.lt_of_le_of_lt high (by decide))
    cases digit.symm.trans none
  · rfl

/-- Every digit has a value. -/
theorem length_filterMap_digitValue? {digits : List Char}
    (usual : ∀ c ∈ digits, isDigit c = true) :
    (digits.filterMap digitValue?).length = digits.length := by
  rw [List.length_filterMap_eq_countP, List.countP_eq_length]
  exact usual

end Text

namespace Reading

variable {digits rest : List Char}

/-- A digit is no sign. -/
theorem sign_of_isDigit {digit : Char} (isDigit : Text.isDigit digit = true) :
    sign (digit :: rest) = (false, digit :: rest) := by
  unfold sign
  split
  · rename_i minus
    exact (NumberLiteral.ne_of_isDigit isDigit (by decide) (List.cons.inj minus).1).elim
  · rename_i plus
    exact (NumberLiteral.ne_of_isDigit isDigit (by decide) (List.cons.inj plus).1).elim
  · rfl

/-! ## Runs of digits -/

/-- Without an underscore behind it, a digit stands before the digits that follow. -/
theorem grouped?_cons_cons {c d : Char} (separate : d ≠ '_') (rest : List Char) :
    grouped? (c :: d :: rest) = (do
      let digit ← Text.digitValue? c
      let digits ← grouped? (d :: rest)
      pure (digit :: digits)) := by
  rw [grouped?]
  · rintro ⟨⟩
  · rintro rest' same
    exact separate (List.cons.inj same).1

theorem grouped?_of_not_digit {c : Char} (other : Text.isDigit c = false) (rest : List Char) :
    grouped? (c :: rest) = none := by
  have none : Text.digitValue? c = none := by
    rwa [Text.isDigit, Option.isSome_eq_false_iff, Option.isNone_iff_eq_none] at other
  unfold grouped?
  split
  · rename_i same
    cases same
  · rename_i d same
    obtain ⟨rfl, _⟩ := List.cons.inj same
    rw [none]
    rfl
  · rename_i d after same
    obtain ⟨rfl, _⟩ := List.cons.inj same
    rw [none]
    rfl
  · rename_i d after _ _ same
    obtain ⟨rfl, _⟩ := List.cons.inj same
    rw [none]
    rfl

/-- Digits without underscores are grouped digits. -/
theorem grouped?_digits (nonempty : digits ≠ []) (usual : ∀ c ∈ digits, Text.isDigit c = true) :
    grouped? digits = some (digits.filterMap Text.digitValue?) := by
  induction digits with
  | nil => exact (nonempty rfl).elim
  | cons c rest ih =>
      obtain ⟨digit, others⟩ := List.forall_mem_cons.mp usual
      obtain ⟨value, read⟩ := Option.isSome_iff_exists.mp digit
      cases rest with
      | nil => simp [grouped?, read]
      | cons d more =>
          have separate : d ≠ '_' :=
            NumberLiteral.ne_of_isDigit (others d (List.mem_cons_self ..)) (by decide)
          rw [grouped?_cons_cons separate, ih (List.cons_ne_nil d more) others,
            List.filterMap_cons_some read, read]
          rfl

/-- Digits with anything else behind them are no run. -/
theorem grouped?_digits_append {mark : Char} (mixed : inRun mark = false)
    (usual : ∀ c ∈ digits, Text.isDigit c = true) : grouped? (digits ++ mark :: rest) = none := by
  obtain ⟨other, separate⟩ : Text.isDigit mark = false ∧ mark ≠ '_' := by
    simpa [inRun] using mixed
  induction digits with
  | nil => exact grouped?_of_not_digit other rest
  | cons c more ih =>
      obtain ⟨_, others⟩ := List.forall_mem_cons.mp usual
      cases more with
      | nil =>
          rw [List.cons_append, List.nil_append, grouped?_cons_cons separate,
            grouped?_of_not_digit other]
          cases Text.digitValue? c <;> rfl
      | cons d more =>
          have separate' : d ≠ '_' :=
            NumberLiteral.ne_of_isDigit (others d (List.mem_cons_self ..)) (by decide)
          have tail := ih others
          rw [List.cons_append] at tail
          rw [List.cons_append, List.cons_append, grouped?_cons_cons separate', tail]
          cases Text.digitValue? c <;> rfl

/-- A run of digits ends where neither a digit nor an underscore follows. -/
theorem run?_digits (usual : ∀ c ∈ digits, Text.isDigit c = true)
    (ends : ∀ c ∈ rest.head?, inRun c = false) :
    run? (digits ++ rest) = some (digits.filterMap Text.digitValue?, rest) := by
  have inside : ∀ c ∈ digits, inRun c = true := by
    intro c member
    simp [inRun, usual c member]
  obtain ⟨taken, left⟩ := Text.takeWhile_run inside ends
  rw [run?, taken, left]
  cases digits with
  | nil => rfl
  | cons c more =>
      change (grouped? (c :: more)).map _ = _
      rw [grouped?_digits (List.cons_ne_nil c more) usual]
      rfl

/-! ## Decimals -/

/-- The values of the digits after a point, and what follows them; no point has none. -/
def fraction? : List Char → Option (List Nat × List Char)
  | '.' :: rest => run? rest
  | rest => some ([], rest)

/-- A decimal is read part by part. -/
theorem decimal?_eq_of_parts {negative : Bool} {text afterWhole afterFraction : List Char}
    {whole fraction : List Nat} {power : Int} (first : run? text = some (whole, afterWhole))
    (second : fraction? afterWhole = some (fraction, afterFraction))
    (third : exponent? afterFraction = some power) (nonempty : whole ≠ []) :
    decimal? negative text = some (.ofRounded negative (Binary64.ofDecimal negative
      (Digits.value (whole ++ fraction)) (power - fraction.length))) := by
  have read : (whole.isEmpty && fraction.isEmpty) = false := by simp [nonempty]
  unfold decimal?
  simp only [first, Option.bind_eq_bind, Option.bind_some]
  unfold fraction? at second
  split at second
  · simp only [second, third, read, Option.bind_some]
    rfl
  · obtain ⟨rfl, rfl⟩ := Prod.mk.inj (Option.some.inj second)
    simp only [third, read, Option.bind_some]
    rfl

end Reading

namespace NumberLiteral

variable {literal : NumberLiteral}

/-- The literal without its sign. -/
def unsigned (literal : NumberLiteral) : List Char :=
  literal.whole ++ (fractionText literal.fraction ++ exponentText literal.exponent)

theorem text_eq_unsigned (literal : NumberLiteral) :
    literal.text = signText literal.negative ++ literal.unsigned := by
  simp [NumberLiteral.text, unsigned]

/-- A whole number of more digits than one may have in a text. -/
def IsLong (literal : NumberLiteral) : Prop :=
  literal.fraction = [] ∧ literal.exponent = none ∧ Digits.limit < literal.whole.length

/-! ## The parts of a literal -/

/-- Behind its sign a literal starts with a digit. -/
theorem WellFormed.exists_unsigned (formed : literal.WellFormed) :
    ∃ digit rest, literal.unsigned = digit :: rest ∧ Text.isDigit digit = true := by
  obtain ⟨digit, more, whole⟩ := List.exists_cons_of_ne_nil formed.nonempty
  refine ⟨digit, _, by rw [unsigned, whole]; rfl, formed.whole digit (by simp [whole])⟩

/-- The sign of a written literal is read off. -/
theorem WellFormed.sign_text (formed : literal.WellFormed) :
    Reading.sign literal.text = (literal.negative, literal.unsigned) := by
  obtain ⟨digit, rest, same, isDigit⟩ := formed.exists_unsigned
  rw [text_eq_unsigned, same]
  cases literal.negative with
  | true => rfl
  | false => exact Reading.sign_of_isDigit isDigit

/-- No literal is read as infinity or as not a number. -/
theorem WellFormed.special?_unsigned (formed : literal.WellFormed) (negative : Bool) :
    Reading.special? negative literal.unsigned = none := by
  obtain ⟨digit, rest, same, isDigit⟩ := formed.exists_unsigned
  have first : ∀ word : String, String.ofList (literal.unsigned.map Char.toLower) = word →
      word.toList.head? = some digit := by
    rintro _ rfl
    rw [String.toList_ofList, same, List.map_cons, Text.toLower_of_isDigit isDigit]
    rfl
  unfold Reading.special?
  split
  · rename_i named
    obtain rfl := Option.some.inj (first _ named)
    exact absurd isDigit (by decide)
  · rename_i named
    obtain rfl := Option.some.inj (first _ named)
    exact absurd isDigit (by decide)
  · rename_i named
    obtain rfl := Option.some.inj (first _ named)
    exact absurd isDigit (by decide)
  · rfl

/-- A written exponent is read as its power. -/
theorem exponent?_exponentText {exponent : Option Exponent}
    (formed : ∀ given ∈ exponent, given.WellFormed) :
    Reading.exponent? (exponentText exponent) = some ((exponent.map Exponent.power).getD 0) := by
  cases exponent with
  | none => rfl
  | some given =>
      obtain ⟨marker, signs, nonempty, digits⟩ := formed given rfl
      have sign : Reading.sign (given.sign.toList ++ given.digits) =
          (decide (given.sign = some '-'), given.digits) := by
        rcases signs with none | minus | plus
        · obtain ⟨digit, more, same⟩ := List.exists_cons_of_ne_nil nonempty
          have isDigit : Text.isDigit digit = true := digits digit (by simp [same])
          rw [none, same]
          exact Reading.sign_of_isDigit isDigit
        · rw [minus]
          rfl
        · rw [plus]
          rfl
      change Reading.exponent? (given.marker :: (given.sign.toList ++ given.digits)) = _
      rw [Reading.exponent?, sign]
      simp only [marker, if_true, Reading.grouped?_digits nonempty digits]
      rfl

/-- No run of digits goes on into an exponent. -/
theorem inRun_head_exponentText {exponent : Option Exponent}
    (formed : ∀ given ∈ exponent, given.WellFormed) :
    ∀ c ∈ (exponentText exponent).head?, Reading.inRun c = false := by
  cases exponent with
  | none => nofun
  | some given =>
      intro c first
      obtain rfl := Option.some.inj first
      rcases (formed given rfl).marker with lower | upper
      · rw [lower]
        decide
      · rw [upper]
        decide

/-- A written fraction is read as the values of its digits. -/
theorem fraction?_text (formed : literal.WellFormed) :
    Reading.fraction? (fractionText literal.fraction ++ exponentText literal.exponent) =
      some (literal.fraction.filterMap Text.digitValue?, exponentText literal.exponent) := by
  have ends := inRun_head_exponentText formed.exponent
  cases digits : literal.fraction with
  | cons digit more => exact Reading.run?_digits (digits ▸ formed.fraction) ends
  | nil =>
      cases given : literal.exponent with
      | none => rfl
      | some exponent =>
          change Reading.fraction? (exponent.marker :: _) = _
          unfold Reading.fraction?
          split
          · rename_i point
            have marker := (formed.exponent exponent given).marker
            rw [(List.cons.inj point).1] at marker
            exact absurd marker (by decide)
          · rfl

/-- No run of digits goes on behind the digits before the point. -/
theorem WellFormed.inRun_head (formed : literal.WellFormed) :
    ∀ c ∈ (fractionText literal.fraction ++ exponentText literal.exponent).head?,
      Reading.inRun c = false := by
  cases literal.fraction with
  | nil => exact inRun_head_exponentText formed.exponent
  | cons digit more =>
      intro c first
      obtain rfl := Option.some.inj first
      decide

/-- Behind its sign a literal is read as its decimal, rounded. -/
theorem WellFormed.decimal?_unsigned (formed : literal.WellFormed) (negative : Bool) :
    Reading.decimal? negative literal.unsigned =
      some (.ofRounded negative (Binary64.ofDecimal negative literal.decimal.coefficient
        literal.decimal.exponent)) := by
  have whole := Reading.run?_digits formed.whole formed.inRun_head
  have power := exponent?_exponentText formed.exponent
  have nonempty : literal.whole.filterMap Text.digitValue? ≠ [] := by
    rw [← List.length_pos_iff, Text.length_filterMap_digitValue? formed.whole]
    exact List.length_pos_iff.mpr formed.nonempty
  rw [unsigned, Reading.decimal?_eq_of_parts whole (fraction?_text formed) power nonempty,
    ← List.filterMap_append, Text.length_filterMap_digitValue? formed.fraction]
  rfl

/-! ## Literals -/

/-- A literal is read as its decimal, rounded, with its sign. -/
theorem WellFormed.real?_text (formed : literal.WellFormed) :
    Reading.real? literal.text =
      some (.ofRounded literal.negative (Binary64.ofDecimal literal.negative
        literal.decimal.coefficient literal.decimal.exponent)) := by
  rw [Reading.real?, formed.sign_text, ← formed.decimal?_unsigned]
  simp only [formed.special?_unsigned]

/-- A literal with a point or an exponent is no whole number. -/
theorem WellFormed.integer?_text_of_marked (formed : literal.WellFormed)
    (marked : literal.fraction ≠ [] ∨ literal.exponent ≠ none) :
    Reading.integer? literal.text = none := by
  have mixed := formed.inRun_head
  have nonempty : fractionText literal.fraction ++ exponentText literal.exponent ≠ [] := by
    intro none
    obtain ⟨noFraction, noExponent⟩ := List.append_eq_nil_iff.mp none
    rcases marked with fraction | exponent
    · rw [fractionText_of_ne_nil fraction] at noFraction
      cases noFraction
    · obtain ⟨given, present⟩ := Option.ne_none_iff_exists'.mp exponent
      rw [present] at noExponent
      cases noExponent
  obtain ⟨mark, rest, same⟩ := List.exists_cons_of_ne_nil nonempty
  rw [same] at mixed
  rw [Reading.integer?, formed.sign_text, unsigned, same]
  simp only [Reading.grouped?_digits_append (mixed mark rfl) formed.whole, Option.bind_none]

/-- A literal without them is a whole number if it has few enough digits. -/
theorem WellFormed.integer?_text_of_plain (formed : literal.WellFormed)
    (noFraction : literal.fraction = []) (noExponent : literal.exponent = none) :
    Reading.integer? literal.text =
      Digits.readSigned? literal.negative (literal.whole.filterMap Text.digitValue?) := by
  have digits : literal.unsigned = literal.whole := by
    rw [unsigned, noFraction, noExponent]
    simp [fractionText, exponentText]
  rw [Reading.integer?, formed.sign_text, digits]
  simp only [Reading.grouped?_digits formed.nonempty formed.whole, Option.bind_some]

/-- What is rounded to a finite value is read as one. -/
theorem WellFormed.number?_text_of_integer?_eq_none (formed : literal.WellFormed)
    (none : Reading.integer? literal.text = none) :
    Reading.number? literal.text = some
      (match Binary64.ofDecimal literal.negative literal.decimal.coefficient
          literal.decimal.exponent with
        | some x => .number (.real x)
        | .none => .notFinite) := by
  rw [Reading.number?, none]
  simp only [formed.real?_text]
  cases Binary64.ofDecimal literal.negative literal.decimal.coefficient
      literal.decimal.exponent with
  | none => rfl
  | some x => rfl

/-- **A literal is read as text as it is in a template**, unless it has too many digits. -/
theorem WellFormed.number?_text (formed : literal.WellFormed) (short : ¬literal.IsLong) :
    Reading.number? literal.text = some
      (match literal.value? with
        | some value => .number value
        | none => .notFinite) := by
  by_cases marked : literal.fraction ≠ [] ∨ literal.exponent ≠ none
  · rw [formed.number?_text_of_integer?_eq_none (formed.integer?_text_of_marked marked),
      value?_of_marked marked]
    cases Binary64.ofDecimal literal.negative literal.decimal.coefficient
        literal.decimal.exponent with
    | none => rfl
    | some x => rfl
  · rw [not_or, not_not, not_not] at marked
    obtain ⟨noFraction, noExponent⟩ := marked
    have few : literal.whole.length ≤ Digits.limit :=
      not_lt.mp fun long => short ⟨noFraction, noExponent, long⟩
    rw [← Text.length_filterMap_digitValue? formed.whole] at few
    have read := formed.integer?_text_of_plain noFraction noExponent
    rw [Digits.readSigned?, if_pos few] at read
    simp only [Reading.number?, read, value?, noFraction, noExponent, Digits.readSigned?,
      if_pos few]
    rfl

/-- A whole number of too many digits stands for none in a template, but as text it is a decimal. -/
theorem WellFormed.number?_text_of_isLong (formed : literal.WellFormed) (long : literal.IsLong) :
    literal.value? = none ∧
    Reading.number? literal.text = some
      (match Binary64.ofDecimal literal.negative (digitsValue literal.whole) 0 with
        | some x => .number (.real x)
        | none => .notFinite) := by
  obtain ⟨noFraction, noExponent, many⟩ := long
  have refused : Digits.readSigned? literal.negative
      (literal.whole.filterMap Text.digitValue?) = none := by
    rw [Digits.readSigned?, Text.length_filterMap_digitValue? formed.whole,
      if_neg (not_le.mpr many)]
  have whole : literal.decimal = ⟨digitsValue literal.whole, 0⟩ := by
    rw [decimal, noFraction, noExponent]
    simp
  constructor
  · simp only [value?, noFraction, noExponent, refused, Option.map_none]
  · have none := formed.integer?_text_of_plain noFraction noExponent
    rw [refused] at none
    rw [formed.number?_text_of_integer?_eq_none none, whole]

/-- A number that a literal stands for is read from its text. -/
theorem WellFormed.number?_text_of_value? (formed : literal.WellFormed) {number : Number}
    (stands : literal.value? = some number) :
    Reading.number? literal.text = some (.number number) := by
  have short : ¬literal.IsLong := by
    intro long
    cases (formed.number?_text_of_isLong long).1.symm.trans stands
  rw [formed.number?_text short, stands]

/-- Neither blank characters nor anything else stands around a literal in its text. -/
theorem WellFormed.tight_text (formed : literal.WellFormed) : Text.Tight literal.text := by
  apply Text.tight_of_visible
  · simp [NumberLiteral.text, formed.nonempty]
  · exact forall_mem_text_of_digits formed (List.all_iff_forall_prop.mp (by decide))
      fun _ digit => Text.isBlank_of_isDigit digit

end NumberLiteral

end EditableTemplate
