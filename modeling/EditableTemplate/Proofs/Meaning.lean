import EditableTemplate.Proofs.Number.Worth
import EditableTemplate.Proofs.Value

/-!
# What values and defaults mean

Two values mean the same if they are of one kind and have equal contents, numbers by their worth
(`Value.meaning`), and two defaults do if they are values that mean the same or refer to one
variable (`Default.meaning`). That is what agreement decides (`Default.agrees_iff_meaning`). What a
value means decides its kind, the values that it can be checked to, and its text in rendered output.
-/

namespace EditableTemplate

section

variable {α β : Type} {meaning : α → β} {first second : Option α}

/-- What is there on one side has a counterpart of its meaning on the other. -/
theorem exists_of_map_eq (same : first.map meaning = second.map meaning) {value : α}
    (given : first = some value) :
    ∃ other, second = some other ∧ meaning other = meaning value := by
  rw [given, Option.map_some] at same
  exact Option.map_eq_some_iff.mp same.symm

theorem eq_none_of_map_eq (same : first.map meaning = second.map meaning)
    (absent : first = none) : second = none := by
  rw [absent, Option.map_none] at same
  exact Option.map_eq_none_iff.mp same.symm

end

/-- The content of a value together with its kind; a number counts by its worth. -/
inductive Value.Meaning
  | string (text : CodePoints)
  | number (worth : ℚ)
  | boolean (truth : Bool)
  | color (text : CodePoints)

namespace Value

variable {first second : Value}

def meaning : Value → Meaning
  | .string text => .string text
  | .number value => .number value.worth
  | .boolean truth => .boolean truth
  | .color text => .color text

/-- Values agree exactly if they mean the same. -/
theorem agrees_iff_meaning : first.agrees second = true ↔ first.meaning = second.meaning := by
  cases first <;> cases second <;> simp [agrees, meaning, Number.agrees_iff_worth]

theorem kind_eq_of_meaning (same : first.meaning = second.meaning) : first.kind = second.kind := by
  cases first <;> cases second <;> first | rfl | cases same

/-- Values that mean the same either are the same or are numbers. -/
theorem eq_or_number_of_meaning (same : first.meaning = second.meaning) :
    first = second ∨ ∃ x y, first = .number x ∧ second = .number y ∧ x.worth = y.worth := by
  cases first with
  | string text =>
      cases second with
      | string other => exact .inl (congrArg Value.string (Meaning.string.inj same))
      | number _ => cases same
      | boolean _ => cases same
      | color _ => cases same
  | number x =>
      cases second with
      | string _ => cases same
      | number y => exact .inr ⟨x, y, rfl, rfl, Meaning.number.inj same⟩
      | boolean _ => cases same
      | color _ => cases same
  | boolean truth =>
      cases second with
      | string _ => cases same
      | number _ => cases same
      | boolean other => exact .inl (congrArg Value.boolean (Meaning.boolean.inj same))
      | color _ => cases same
  | color text =>
      cases second with
      | string _ => cases same
      | number _ => cases same
      | boolean _ => cases same
      | color other => exact .inl (congrArg Value.color (Meaning.color.inj same))

/-- Values that mean the same are rendered alike. -/
theorem rendered_eq_of_meaning (same : first.meaning = second.meaning) :
    first.rendered = second.rendered := by
  rcases eq_or_number_of_meaning same with rfl | ⟨x, y, rfl, rfl, worths⟩
  · rfl
  · exact congrArg CodePoints.ofChars (Number.rendered_eq_of_worth worths)

/-- Of values that mean the same both can be written or neither. -/
theorem writable_eq_of_meaning (same : first.meaning = second.meaning) :
    first.writable = second.writable := by
  rcases eq_or_number_of_meaning same with rfl | ⟨x, y, rfl, rfl, worths⟩
  · rfl
  · exact Bool.eq_iff_iff.mpr
      ⟨Number.writable_of_worth worths, Number.writable_of_worth worths.symm⟩

/-- Values that mean the same stand for the same where a kind is declared. -/
theorem map_meaning_retag? (same : first.meaning = second.meaning) (declared : Kind) :
    (first.retag? declared).map meaning = (second.retag? declared).map meaning := by
  rcases eq_or_number_of_meaning same with rfl | ⟨x, y, rfl, rfl, worths⟩
  · rfl
  · cases declared with
    | number => exact congrArg some same
    | string => rfl
    | boolean => rfl
    | color => rfl

/-- Of values that mean the same both pass a check or neither, with results that mean the same. -/
theorem exists_check_of_meaning {name : String} {declared : Kind} {result : Value}
    (same : first.meaning = second.meaning) (checked : first.check name declared = .ok result) :
    ∃ other, second.check name declared = .ok other ∧ result.meaning = other.meaning := by
  obtain ⟨other, found, means⟩ :=
    exists_of_map_eq (map_meaning_retag? same declared) (check_eq_ok_iff.mp checked)
  exact ⟨other, check_eq_ok_iff.mpr found, means.symm⟩

end Value

/-- What a default gives a variable: what a value means, or another variable. -/
inductive Default.Meaning
  | literal (value : Value.Meaning)
  | reference (name : String)

namespace Default

variable {first second : Default}

def meaning : Default → Meaning
  | .literal value => .literal value.meaning
  | .reference name => .reference name

/-- Defaults agree exactly if they mean the same. -/
theorem agrees_iff_meaning : first.agrees second = true ↔ first.meaning = second.meaning := by
  cases first <;> cases second <;> simp [agrees, meaning, Value.agrees_iff_meaning]

theorem meaning_eq_reference_iff {name : String} :
    first.meaning = .reference name ↔ first = .reference name := by
  cases first <;> simp [meaning]

/-- What means the same as a literal is a literal. -/
theorem exists_literal_of_meaning {value : Value} (same : first.meaning = .literal value.meaning) :
    ∃ other, first = .literal other ∧ other.meaning = value.meaning := by
  cases first with
  | literal other => exact ⟨other, rfl, Meaning.literal.inj same⟩
  | reference _ => cases same

/-- The default of a variable of a kind: a literal is retagged to it, if it can be. -/
def retag? (kind : Kind) : Default → Option Default
  | .literal value => (value.retag? kind).map .literal
  | .reference name => some (.reference name)

/-- Defaults that mean the same still do so when retagged. -/
theorem map_meaning_retag? (same : first.meaning = second.meaning) (kind : Kind) :
    (first.retag? kind).map meaning = (second.retag? kind).map meaning := by
  cases first with
  | literal value =>
      cases second with
      | literal other =>
          have retagged := Value.map_meaning_retag? (Meaning.literal.inj same) kind
          have outer := congrArg (Option.map Meaning.literal) retagged
          simpa [retag?, Option.map_map, Function.comp_def, meaning] using outer
      | reference _ => cases same
  | reference name =>
      cases second with
      | literal _ => cases same
      | reference other => exact congrArg some same

end Default

end EditableTemplate
