import EditableTemplate.Override.Text
import EditableTemplate.Proofs.Number.Reading
import EditableTemplate.Proofs.Number.Worth
import EditableTemplate.Proofs.Value

/-!
# Values come back from their text

What a value is rendered as, given as text for a variable of its kind, is read as an equal value
(`Value.readText_rendered`). A binary value that is whole is rendered as a whole number and read as
one, so that its kind of number and the sign of zero are lost, but not its worth. Any other binary
value is rendered as a decimal that is rounded to it.
-/

namespace EditableTemplate

namespace Number

variable {number : Number}

theorem agrees_self (number : Number) : number.agrees number = true :=
  agrees_iff_worth.mpr rfl

/-- In rendered output a number is what a number of the same worth is in a message. -/
theorem exists_shown_eq_rendered (writable : number.writable = true) :
    ∃ other : Number, other.shown = number.rendered ∧ other.writable = true ∧
      other.agrees number = true := by
  cases number with
  | integer value => exact ⟨.integer value, rfl, writable, agrees_self _⟩
  | real x =>
      cases taken : x.toInt? with
      | some whole =>
          refine ⟨.integer whole, ?_, Binary64.fits_of_toInt? taken, ?_⟩
          · rw [rendered, taken]
            rfl
          · exact (agrees_iff _ _).mpr (Binary64.toInt?_eq_some_iff.mp taken).symm
      | none =>
          refine ⟨.real x, ?_, rfl, agrees_self _⟩
          rw [rendered, taken]
          rfl

/-- A number of the same worth is read from what a number is rendered as. -/
theorem exists_number?_rendered (writable : number.writable = true) :
    ∃ result, Reading.number? (Text.trim number.rendered) = some (.number result) ∧
      result.agrees number = true := by
  obtain ⟨other, shown, writable', same⟩ := exists_shown_eq_rendered writable
  obtain ⟨literal, form, text, stands⟩ := exists_literal_shown writable'
  have formed := form.wellFormed
  refine ⟨other, ?_, same⟩
  rw [← shown, ← text, Text.trim_of_tight formed.tight_text, formed.number?_text_of_value? stands]

end Number

namespace Value

/-- A value that has a text: no whole number of too many digits, and no color but the text of one
without blank characters around it. -/
def HasText : Value → Prop
  | .string _ => True
  | .number amount => amount.writable = true
  | .boolean _ => True
  | .color text => ∃ chars, text = CodePoints.ofChars chars ∧ Color.isValid chars = true ∧
      Text.trim chars = chars

/-- A text that reads as a number gives this number. -/
theorem readText_number (name : String) {chars : List Char} {amount : Number}
    (read : Reading.number? (Text.trim chars) = some (.number amount)) :
    readText name (.ofChars chars) .number = .ok (.number amount) := by
  simp only [readText, CodePoints.plain?_ofChars, Option.bind_some, read]

/-- A text that reads as an infinite number is refused as not finite. -/
theorem readText_notFinite (name : String) {chars : List Char}
    (read : Reading.number? (Text.trim chars) = some .notFinite) :
    readText name (.ofChars chars) .number =
      .error (textMismatch name (.ofChars chars) .number .notFinite) := by
  simp only [readText, CodePoints.plain?_ofChars, Option.bind_some, read]

theorem readText_truth (name : String) (value : Bool) :
    readText name (.ofChars (truth value)) .boolean = .ok (.boolean value) := by
  have trimmed : Text.trim (truth value) = truth value := by cases value <;> decide
  simp only [readText, CodePoints.plain?_ofChars, Option.bind_some, trimmed, truth?_truth]

/-- A color without blanks around it gives this color. -/
theorem readText_color (name : String) {chars : List Char} (valid : Color.isValid chars = true)
    (trimmed : Text.trim chars = chars) :
    readText name (.ofChars chars) .color = .ok (.color (.ofChars chars)) := by
  rw [readText, check_eq_ok_iff]
  simp only [retag?, Color.ofText?_ofChars valid trimmed, Option.map_some]

/-- **Values come back from their text.** Numbers of the same worth have one text, and all other
values are read back as they are. -/
theorem readText_rendered :
    (∀ (name : String) (value : Value), value.HasText →
      ∃ result, readText name value.rendered value.kind = .ok result ∧
        result.kind = value.kind ∧ result.agrees value = true) ∧
    ∀ first second : Number, first.agrees second = true →
      first.rendered = second.rendered ∧ first.writable = second.writable := by
  constructor
  · intro name value hasText
    cases value with
    | string text => exact ⟨.string text, check_self name (.string text), rfl, by simp [agrees]⟩
    | boolean value => exact ⟨.boolean value, readText_truth name value, rfl, by simp [agrees]⟩
    | color text =>
        obtain ⟨chars, rfl, valid, trimmed⟩ := hasText
        exact ⟨_, readText_color name valid trimmed, rfl, by simp [agrees]⟩
    | number amount =>
        obtain ⟨result, read, same⟩ := Number.exists_number?_rendered hasText
        exact ⟨.number result, readText_number name read, rfl, same⟩
  · intro first second same
    have worth := Number.agrees_iff_worth.mp same
    refine ⟨Number.rendered_eq_of_worth worth, ?_⟩
    rw [Bool.eq_iff_iff]
    exact ⟨Number.writable_of_worth worth, Number.writable_of_worth worth.symm⟩

/-- The negative zero is rendered without its sign and read as a whole number. -/
theorem readText_negative_zero :
    (number (.real (Binary64.zero true))).HasText ∧
    (∃ result, readText "n" (number (.real (Binary64.zero true))).rendered .number = .ok result ∧
      result.kind = .number ∧ result.agrees (number (.real (Binary64.zero true))) = true) ∧
    (Number.integer 0).agrees (.real (Binary64.zero true)) = true ∧
    (Number.integer 0).rendered = (Number.real (Binary64.zero true)).rendered := by
  obtain ⟨comesBack, share⟩ := readText_rendered
  have same : (Number.integer 0).agrees (.real (Binary64.zero true)) = true := by
    rw [Number.agrees_iff, Number.units, Int.zero_mul]
    rfl
  exact ⟨rfl, comesBack "n" _ rfl, same, (share _ _ same).1⟩

end Value

end EditableTemplate
