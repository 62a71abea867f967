import EditableTemplate.Proofs.Override.Text
import EditableTemplate.Proofs.Template.Spacing

/-!
# Number literals in templates and in overrides

A text that is one number literal can be a default in a template and an override given as text. Both
readers find the same number, or both find it out of range, unless the literal is a whole number of
too many digits that is still in range since it starts with zeros (`NumberLiteral.IsPadded`): a
template refuses it, but an override is then read as a decimal (`Value.readText_literal`).
-/

namespace EditableTemplate

/-- A number is not below its first digit in its place. -/
theorem Digits.mul_tenPow_le_value (digit : Nat) (rest : List Nat) :
    digit * tenPow rest.length ≤ value (digit :: rest) := by
  induction rest using List.reverseRecOn with
  | nil => simp [value, tenPow_zero]
  | append_singleton rest last ih =>
      rw [← List.cons_append, value_concat, List.length_append, List.length_singleton, tenPow_succ,
        ← Nat.mul_assoc]
      omega

/-- A whole number that does not round to infinity has few digits. -/
theorem Binary64.count_le_of_ofDecimal {negative : Bool} {coefficient : Nat}
    (finite : (ofDecimal negative coefficient 0).isSome) : Digits.count coefficient ≤ 310 := by
  by_contra many
  have nonzero : coefficient ≠ 0 := by
    rintro rfl
    exact many (by decide)
  have beyond : 310 < (Digits.count coefficient : Int) + 0 := by omega
  simp only [ofDecimal, if_neg nonzero, if_pos beyond] at finite
  cases finite

namespace NumberLiteral

variable {literal : NumberLiteral} {name : String} {text : List Char} {rest : List Lexeme}

/-- The fault of a literal that is out of range. -/
def outOfRange (literal : NumberLiteral) : SyntaxFault :=
  .numberOutOfRange (String.ofList (literal.text.take shownLiteralLength))

/-- A whole number of too many digits that rounds to a finite value all the same. -/
structure IsPadded (literal : NumberLiteral) : Prop where
  long : literal.IsLong
  finite : (Binary64.ofDecimal literal.negative (digitsValue literal.whole) 0).isSome

/-- Digits of which the first is no zero spell a great number. -/
theorem tenPow_le_digitsValue {digit : Char} {more : List Char}
    (usual : ∀ c ∈ digit :: more, Text.isDigit c = true)
    (nonzero : Text.digitValue? digit ≠ some 0) :
    tenPow more.length ≤ digitsValue (digit :: more) := by
  obtain ⟨isDigit, others⟩ := List.forall_mem_cons.mp usual
  obtain ⟨first, read⟩ := Option.isSome_iff_exists.mp isDigit
  have positive : 0 < first := by
    rw [Nat.pos_iff_ne_zero]
    rintro rfl
    exact nonzero read
  have least := Digits.mul_tenPow_le_value first (more.filterMap Text.digitValue?)
  rw [Text.length_filterMap_digitValue? others] at least
  rw [digitsValue, List.filterMap_cons_some read]
  exact (Nat.le_mul_of_pos_left _ positive).trans least

/-- Such a literal starts with a zero of some script. -/
theorem IsPadded.exists_zero (padded : literal.IsPadded) (formed : literal.WellFormed) :
    ∃ digit more, literal.whole = digit :: more ∧ Text.digitValue? digit = some 0 := by
  obtain ⟨digit, more, whole⟩ := List.exists_cons_of_ne_nil formed.nonempty
  refine ⟨digit, more, whole, ?_⟩
  by_contra nonzero
  obtain ⟨⟨_, _, many⟩, finite⟩ := padded
  have many : 310 ≤ more.length := by
    rw [whole, List.length_cons, Digits.limit] at many
    omega
  have great := calc
    tenPow 310 ≤ tenPow more.length := tenPow_le many
    _ ≤ digitsValue literal.whole := whole ▸ tenPow_le_digitsValue (whole ▸ formed.whole) nonzero
  have small := calc
    digitsValue literal.whole < tenPow (Digits.count (digitsValue literal.whole)) :=
      Digits.lt_tenPow_count _
    _ ≤ tenPow 310 := tenPow_le (Binary64.count_le_of_ofDecimal finite)
  exact absurd small (not_lt.mpr great)

/-- What the two readers make of a literal is the same: one number, or that it is out of range. -/
inductive ReadAlike (name : String) (text : CodePoints) (literal : NumberLiteral)
    (rest : List Lexeme) : Prop
  /-- Both find the number that it stands for. -/
  | number (value : Number)
    (inTemplate : readDefault (.number literal :: rest) = .ok (.literal (.number value), rest))
    (asText : Value.readText name text .number = .ok (.number value))
  /-- Neither finds one. -/
  | outOfRange
    (inTemplate : readDefault (.number literal :: rest) =
      .error (literal.outOfRange.locate (.number literal :: rest)))
    (asText : Value.readText name text .number =
      .error (Value.textMismatch name text .number .notFinite))

/-! ## The two readers -/

theorem readDefault_of_value? {value : Number} (stands : literal.value? = some value) :
    readDefault (.number literal :: rest) = .ok (.literal (.number value), rest) := by
  rw [readDefault, stands]

/-- A literal without a value is out of range in a template. -/
theorem readDefault_of_value?_eq_none (none : literal.value? = none) :
    readDefault (.number literal :: rest) =
      .error (literal.outOfRange.locate (.number literal :: rest)) := by
  rw [readDefault, none]
  rfl

/-- A literal is read alike in all other cases. -/
theorem WellFormed.readAlike (formed : literal.WellFormed) (same : Text.trim text = literal.text)
    (unpadded : ¬literal.IsPadded) : ReadAlike name (.ofChars text) literal rest := by
  by_cases long : literal.IsLong
  · obtain ⟨refused, read⟩ := formed.number?_text_of_isLong long
    cases rounded : Binary64.ofDecimal literal.negative (digitsValue literal.whole) 0 with
    | some x => exact (unpadded ⟨long, by rw [rounded]; rfl⟩).elim
    | none =>
        have notFinite : Reading.number? (Text.trim text) = some .notFinite := by
          rw [same, read, rounded]
        exact .outOfRange (readDefault_of_value?_eq_none refused)
          (Value.readText_notFinite name notFinite)
  · have read := formed.number?_text long
    cases stands : literal.value? with
    | some value =>
        have found : Reading.number? (Text.trim text) = some (.number value) := by
          rw [same, read, stands]
        exact .number value (readDefault_of_value? stands) (Value.readText_number name found)
    | none =>
        have notFinite : Reading.number? (Text.trim text) = some .notFinite := by
          rw [same, read, stands]
        exact .outOfRange (readDefault_of_value?_eq_none stands)
          (Value.readText_notFinite name notFinite)

/-- One with too many digits, of which the first are zeros, is refused in a template but read from
text. -/
theorem WellFormed.readApart (formed : literal.WellFormed) (same : Text.trim text = literal.text)
    (padded : literal.IsPadded) :
    readDefault (.number literal :: rest) =
        .error (literal.outOfRange.locate (.number literal :: rest)) ∧
      ∃ x, Binary64.ofDecimal literal.negative (digitsValue literal.whole) 0 = some x ∧
        Value.readText name (.ofChars text) .number = .ok (.number (.real x)) := by
  obtain ⟨refused, read⟩ := formed.number?_text_of_isLong padded.long
  obtain ⟨x, rounded⟩ := Option.isSome_iff_exists.mp padded.finite
  have found : Reading.number? (Text.trim text) = some (.number (.real x)) := by
    rw [same, read, rounded]
  exact ⟨readDefault_of_value?_eq_none refused, x, rounded, Value.readText_number name found⟩

/-- A literal that is refused in a template but read from text is not read alike. -/
theorem not_readAlike_of_readApart {chars : CodePoints} {x : Binary64}
    (refused : readDefault (.number literal :: rest) =
      .error (literal.outOfRange.locate (.number literal :: rest)))
    (read : Value.readText name chars .number = .ok (.number (.real x))) :
    ¬ReadAlike name chars literal rest := by
  rintro (⟨value, inTemplate, asText⟩ | ⟨inTemplate, asText⟩)
  · cases refused.symm.trans inTemplate
  · cases read.symm.trans asText

end NumberLiteral

namespace TokenRow

/-- A text whose only lexeme is a number is the text of a literal with blanks around it. -/
theorem trim_eq_text {text : String} {position : Int} {row : TokenRow} {literal : NumberLiteral}
    (tokenized : tokenize text position = .ok row) (one : row.lexemes = [.number literal]) :
    literal.WellFormed ∧ Text.trim text.toList = literal.text := by
  obtain ⟨parts, exact, same, rfl⟩ := exists_exact_of_tokenize tokenized
  rw [Segmentation.lexemes_row, List.map_eq_singleton_iff] at one
  obtain ⟨⟨slice, lexeme⟩, pieces, rfl⟩ := one
  rw [← same, exact.trim_text_of_pieces pieces]
  match parts, pieces with
  | .token _ _ _ (.last _), rfl => exact Lexeme.eq_text_of_takenFrom exact.2.1

/-- The text of a literal is one token. -/
theorem tokenize_literal {literal : NumberLiteral} (formed : literal.WellFormed) (position : Int) :
    tokenize (String.ofList literal.text) position =
      .ok ⟨[⟨.number literal, position⟩], position + literal.text.length⟩ :=
  tokenize_of_takenFrom (Lexeme.takenFrom_text formed) position

end TokenRow

namespace Value

/-- **Two readers of number literals.** They agree on all literals but those that have too many
digits and are in range by the zeros in front. -/
theorem readText_literal {text : String} {position : Int} {row : TokenRow}
    {literal : NumberLiteral} (tokenized : TokenRow.tokenize text position = .ok row)
    (one : row.lexemes = [.number literal]) (name : String) (rest : List Lexeme) :
    (literal.ReadAlike name text rest ↔ ¬literal.IsPadded) ∧
    (literal.IsPadded →
      (∃ digit more, literal.whole = digit :: more ∧ Text.digitValue? digit = some 0) ∧
      readDefault (.number literal :: rest) =
        .error (literal.outOfRange.locate (.number literal :: rest)) ∧
      ∃ x, Binary64.ofDecimal literal.negative (NumberLiteral.digitsValue literal.whole) 0 =
          some x ∧
        readText name text .number = .ok (.number (.real x))) := by
  obtain ⟨formed, same⟩ := TokenRow.trim_eq_text tokenized one
  refine ⟨⟨?_, formed.readAlike same⟩, ?_⟩
  · intro alike padded
    obtain ⟨refused, x, _, read⟩ := formed.readApart same padded
    exact NumberLiteral.not_readAlike_of_readApart refused read alike
  · intro padded
    exact ⟨padded.exists_zero formed, formed.readApart same padded⟩

/-- Seven in the digits of another script is read alike. -/
theorem readText_otherDigits :
    TokenRow.tokenize "٠٧" 4 = .ok ⟨[⟨.number ⟨false, ['٠', '٧'], [], none⟩, 4⟩], 6⟩ ∧
    TokenRow.lexemes ⟨[⟨.number ⟨false, ['٠', '٧'], [], none⟩, 4⟩], 6⟩ =
      [.number ⟨false, ['٠', '٧'], [], none⟩] ∧
    NumberLiteral.ReadAlike "n" "٠٧" ⟨false, ['٠', '٧'], [], none⟩ [.mark .comma] := by
  have formed : NumberLiteral.WellFormed ⟨false, ['٠', '٧'], [], none⟩ :=
    ⟨List.cons_ne_nil _ _, List.all_iff_forall_prop.mp (by decide), List.forall_mem_nil _, nofun⟩
  have tokenized := TokenRow.tokenize_literal formed 4
  refine ⟨tokenized, rfl, (readText_literal tokenized rfl "n" [.mark .comma]).1.mpr ?_⟩
  intro padded
  exact absurd padded.long.2.2 (by decide)

end Value

namespace NumberLiteral

/-- Zero in so many digits. -/
def zeros (count : Nat) : NumberLiteral := ⟨false, List.replicate count '0', [], none⟩

theorem wellFormed_zeros {count : Nat} (positive : 0 < count) : (zeros count).WellFormed where
  nonempty := by simpa [zeros] using positive.ne'
  whole := fun _ member => Text.isDigit_of_isDigit (isDigit_of_mem_zeros member)
  fraction := List.forall_mem_nil _
  exponent := nofun

/-- A row of zeros is rounded to zero. -/
theorem ofDecimal_zeros (count : Nat) :
    Binary64.ofDecimal (zeros count).negative (digitsValue (zeros count).whole) 0 =
      some (Binary64.zero false) := by
  rw [zeros, digitsValue_zeros]
  rfl

/-- A row of more zeros than a number may have digits is padded. -/
theorem isPadded_zeros {count : Nat} (many : Digits.limit < count) : (zeros count).IsPadded where
  long := ⟨rfl, rfl, by rwa [zeros, List.length_replicate]⟩
  finite := by
    rw [ofDecimal_zeros]
    rfl

/-- Zero in one digit too many is refused in a template, but from text it is read as a decimal. -/
theorem zeros_read_apart :
    ∃ row : TokenRow,
      TokenRow.tokenize (String.ofList (zeros 4301).text) 0 = .ok row ∧
      row.lexemes = [.number (zeros 4301)] ∧
      readDefault row.lexemes = .error ((zeros 4301).outOfRange.locate row.lexemes) ∧
      Value.readText "n" (String.ofList (zeros 4301).text) .number =
        .ok (.number (.real (Binary64.zero false))) ∧
      ¬(zeros 4301).ReadAlike "n" (String.ofList (zeros 4301).text) [] := by
  have formed : (zeros 4301).WellFormed := wellFormed_zeros (by decide)
  have padded : (zeros 4301).IsPadded := isPadded_zeros (by decide)
  have tokenized := TokenRow.tokenize_literal formed 0
  obtain ⟨_, same⟩ := TokenRow.trim_eq_text tokenized rfl
  obtain ⟨refused, x, rounded, read⟩ := formed.readApart same padded
  have zero : Binary64.ofDecimal (zeros 4301).negative (digitsValue (zeros 4301).whole) 0 =
      some (Binary64.zero false) := ofDecimal_zeros 4301
  obtain rfl := Option.some.inj (rounded.symm.trans zero)
  exact ⟨_, tokenized, rfl, refused, read, not_readAlike_of_readApart refused read⟩

end NumberLiteral

end EditableTemplate
