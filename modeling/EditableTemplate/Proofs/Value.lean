import EditableTemplate.Proofs.Text.Blank
import EditableTemplate.Resolution
import Mathlib.Tactic.Common

/-!
# Checking values

A value that passes the check for a kind belongs to that kind, and so does its content
(`Datum.tag_ofValue`). The kinds alone decide the check with one exception: a string may be refused
where a color is wanted (`Value.check_error_of_accepts`). A color that was found has no blank
characters around it, so it is found again as it is (`Color.ofText?_of_ofText?`).
-/

namespace EditableTemplate

namespace Color

/-- A color without blank characters around it is found as it is. -/
theorem ofText?_ofChars {chars : List Char} (valid : isValid chars = true)
    (trimmed : Text.trim chars = chars) :
    ofText? (CodePoints.ofChars chars) = some (CodePoints.ofChars chars) := by
  rw [ofText?, CodePoints.plain?_ofChars]
  simp only [valid, trimmed, if_true]

/-- The text of a color is plain, valid and without blanks at its ends. -/
theorem exists_chars_of_ofText? {text color : CodePoints} (found : ofText? text = some color) :
    ∃ chars, color = CodePoints.ofChars chars ∧ isValid chars = true ∧
      Text.trim chars = chars := by
  unfold ofText? at found
  split at found
  · rename_i chars _
    split at found
    · rename_i valid
      refine ⟨Text.trim chars, (Option.some.inj found).symm, ?_, Text.trim_trim chars⟩
      rw [isValid, Text.trim_trim]
      exact valid
    · cases found
  · cases found

/-- The text of a color is a color again. -/
theorem ofText?_of_ofText? {text color : CodePoints} (found : ofText? text = some color) :
    ofText? color = some color := by
  obtain ⟨chars, rfl, valid, trimmed⟩ := exists_chars_of_ofText? found
  exact ofText?_ofChars valid trimmed

end Color

namespace Value

/-- A value passes a check exactly where it can be retagged to the kind. -/
theorem check_eq_ok_iff {name : String} {value result : Value} {declared : Kind} :
    value.check name declared = .ok result ↔ value.retag? declared = some result := by
  unfold check
  cases value.retag? declared with
  | none => simp
  | some found => simp

/-- A value that passed a check has the kind. -/
theorem kind_of_check {name : String} {value result : Value} {declared : Kind}
    (checked : value.check name declared = .ok result) : result.kind = declared :=
  kind_of_retag? (check_eq_ok_iff.mp checked)

theorem check_self (name : String) (value : Value) : value.check name value.kind = .ok value :=
  check_eq_ok_iff.mpr value.retag?_self

/-- A value of an acceptable kind is refused only if it is a string that is no color. -/
theorem check_error_of_accepts {name : String} {value : Value} {declared : Kind}
    {failure : Failure} (accepts : declared.accepts value.kind = true)
    (refused : value.check name declared = .error failure) :
    declared = .color ∧ ∃ text, value = .string text ∧ Color.ofText? text = none ∧
      failure = .mismatch name .color (.kind .string) (.text text) := by
  cases declared <;> cases value <;> simp only [check, retag?, reduceCtorEq] at refused
  case color.string text =>
    cases valid : Color.ofText? text with
    | none =>
        rw [valid] at refused
        exact ⟨rfl, text, rfl, valid, (Except.error.inj refused).symm⟩
    | some color =>
        rw [valid] at refused
        cases refused
  all_goals simp [Kind.accepts, kind] at accepts

end Value

namespace Datum

/-- What a datum gives has the kind that it was checked for. -/
theorem kind_of_check {name : String} {datum : Datum} {declared : Kind} {result : Value}
    (checked : datum.check name declared = .ok result) : result.kind = declared := by
  unfold check at checked
  split at checked
  · exact Value.kind_of_check checked
  · cases checked

/-- An override is refused because it belongs to another kind than its variable. -/
theorem check_error {name : String} {datum : Datum} {declared : Kind} {failure : Failure}
    (refused : datum.check name declared = .error failure) :
    ∃ found shown, failure = .mismatch name declared found shown := by
  unfold check at refused
  split at refused
  · unfold Value.check at refused
    split at refused
    · cases refused
    · exact ⟨_, _, (Except.error.inj refused).symm⟩
  · exact ⟨_, _, (Except.error.inj refused).symm⟩

/-- The content of a value belongs to the kind of the value. -/
theorem tag_ofValue (value : Value) : (ofValue value).tag value.kind = .ok value := by
  cases value with
  | string content => rfl
  | number amount => cases amount <;> rfl
  | boolean truth => rfl
  | color content => rfl

end Datum

/-- Only data that are no overrides at all are refused. -/
theorem OverrideSource.normalize_error {source : OverrideSource} {failure : Failure}
    (refused : source.normalize = .error failure) : ∃ sort, failure = .invalidOverrides sort := by
  induction source using OverrideSource.normalize.induct with
  | case1 => cases refused
  | case2 => cases refused
  | case3 inner ih => exact ih refused
  | case4 => cases refused
  | case5 => cases refused
  | case6 value =>
      rw [normalize] at refused
      · exact ⟨_, (Except.error.inj refused).symm⟩
      · assumption
      · assumption

end EditableTemplate
