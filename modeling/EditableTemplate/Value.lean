import EditableTemplate.Color
import EditableTemplate.Number.Basic

/-!
# Kinds and values

Every variable has one of four kinds, and every value belongs to one. A value can not belong to
the wrong kind: `Value` has a constructor for each. `Value.retag?` says which values may stand
where a kind is declared: a color where a string is wanted, and a string where a color is wanted if
it is the text of one.
-/

namespace EditableTemplate

/-- The kinds of variables. -/
inductive Kind
  /-- Any text. -/
  | string
  /-- A number. -/
  | number
  /-- True or false. -/
  | boolean
  /-- A color of the style sheet language. -/
  | color
  deriving DecidableEq, Repr

namespace Kind

/-- All kinds. -/
def all : List Kind := [.string, .number, .boolean, .color]

/-- The word for a kind. -/
def name : Kind → String
  | .string => "string"
  | .number => "number"
  | .boolean => "boolean"
  | .color => "color"

/-- The kind that a word names. -/
def ofName? (word : String) : Option Kind :=
  all.find? (·.name = word)

/-- Every kind is the one that its word names. -/
theorem ofName?_name (kind : Kind) : ofName? kind.name = some kind := by
  cases kind <;> decide

/-- Whether a value of one kind may stand where another is declared, judged by the kinds alone: a
string may turn out to be a color. -/
def accepts (declared actual : Kind) : Bool :=
  declared = actual || (declared = .string && actual = .color) ||
    (declared = .color && actual = .string)

end Kind

/-- A value of one of the kinds. -/
inductive Value
  /-- A text. -/
  | string (text : CodePoints)
  /-- A number. -/
  | number (value : Number)
  /-- True or false. -/
  | boolean (value : Bool)
  /-- The text of a color. -/
  | color (text : CodePoints)
  deriving DecidableEq

namespace Value

/-- The kind that a value belongs to. -/
def kind : Value → Kind
  | .string _ => .string
  | .number _ => .number
  | .boolean _ => .boolean
  | .color _ => .color

/-- Whether two values of one kind are equal, numbers by their worth. -/
def agrees : Value → Value → Bool
  | .string first, .string second => first = second
  | .number first, .number second => first.agrees second
  | .boolean first, .boolean second => first = second
  | .color first, .color second => first = second
  | _, _ => false

/-- The value as one of a declared kind: itself, a color as its text, or the text of a color
without the blank characters around it. -/
def retag? (declared : Kind) (value : Value) : Option Value :=
  match declared, value with
  | .string, .string text => some (.string text)
  | .string, .color text => some (.string text)
  | .number, .number amount => some (.number amount)
  | .boolean, .boolean truth => some (.boolean truth)
  | .color, .color text => some (.color text)
  | .color, .string text => (Color.ofText? text).map .color
  | _, _ => none

/-- What a retagged value is declared to be, it is. -/
theorem kind_of_retag? {declared : Kind} {value result : Value}
    (retagged : value.retag? declared = some result) : result.kind = declared := by
  cases declared <;> cases value <;> simp only [retag?, Option.map_eq_some_iff,
    Option.some.injEq, reduceCtorEq] at retagged
  case color.string text =>
    obtain ⟨_, _, rfl⟩ := retagged
    rfl
  all_goals (rw [← retagged]; rfl)

/-- A value of the declared kind is left as it is. -/
theorem retag?_self (value : Value) : value.retag? value.kind = some value := by
  cases value <;> rfl

/-- A truth value as a word. -/
def truth : Bool → List Char
  | true => ['t', 'r', 'u', 'e']
  | false => ['f', 'a', 'l', 's', 'e']

/-- The value in rendered output. Nothing is escaped. -/
def rendered : Value → CodePoints
  | .string text => text
  | .number value => .ofChars value.rendered
  | .boolean value => .ofChars (truth value)
  | .color text => text

/-- Whether the value has a text: all do but whole numbers with too many digits. -/
def writable : Value → Bool
  | .number value => value.writable
  | _ => true

end Value

end EditableTemplate
