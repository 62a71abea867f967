import EditableTemplate.Catalogue.Collect
import EditableTemplate.Number.Reading

/-!
# Overrides given as text

An override may be given as text, on a command line or in a form field. The kind of the variable
tells how to read it: a string is taken as it is, a color as the text of one, a number in any of
the forms of `Reading.number?`, and a truth value only by its word (`Value.readText`).
-/

namespace EditableTemplate.Value

/-- The truth value that a word stands for. -/
def truth? (text : List Char) : Option Bool :=
  if text = truth true then some true
  else if text = truth false then some false
  else none

/-- The word for a truth value stands for it. -/
theorem truth?_truth (value : Bool) : truth? (truth value) = some value := by
  cases value <;> rfl

/-- The failure of a text that is no value of the kind of a variable. -/
def textMismatch (name : String) (text : CodePoints) (declared : Kind) (found : Found) : Failure :=
  .mismatch name declared found (.text text)

/-- The value of the kind of a variable that a text stands for. A text with half of a surrogate pair
stands for a string only. -/
def readText (name : String) (text : CodePoints) (declared : Kind) : Except Failure Value :=
  match declared with
  | .number =>
    match text.plain?.bind fun chars => Reading.number? (Text.trim chars) with
    | some (.number value) => .ok (.number value)
    | some .notFinite => .error (textMismatch name text .number .notFinite)
    | none => .error (textMismatch name text .number (.kind .string))
  | .boolean =>
    match text.plain?.bind fun chars => truth? (Text.trim chars) with
    | some value => .ok (.boolean value)
    | none => .error (textMismatch name text .boolean (.kind .string))
  | .string => (Value.string text).check name .string
  | .color => (Value.string text).check name .color

end EditableTemplate.Value
