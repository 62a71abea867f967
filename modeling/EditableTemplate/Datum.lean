import EditableTemplate.Bindings
import EditableTemplate.Text.Quoted
import EditableTemplate.Value

/-!
# Data given as overrides

What a caller supplies for a variable is a `Datum`: a plain text, number or truth value, a value
that already belongs to a kind, or something that no variable can hold (nothing, a list, a
dictionary, a number that is not finite). `Datum.wrap` gives a plain datum its natural kind, and
`Datum.tag` makes a value of a stated kind. `Datum.shown` is the form of a datum in messages.
-/

namespace EditableTemplate

/-- What a caller may supply where a value is wanted. -/
inductive Datum
  /-- Nothing. -/
  | none
  /-- True or false. -/
  | boolean (value : Bool)
  /-- A whole number. -/
  | integer (value : Int)
  /-- A binary value, finite or not. -/
  | real (value : Binary64.Extended)
  /-- A text. -/
  | text (value : CodePoints)
  /-- A list. -/
  | list (items : List Datum)
  /-- A dictionary. -/
  | dict (entries : List (CodePoints × Datum))
  /-- A value of a kind. -/
  | typed (value : Value)

namespace Datum

/-- The word for the sort of a datum. -/
def sort : Datum → String
  | .none => "NoneType"
  | .boolean _ => "bool"
  | .integer _ => "int"
  | .real _ => "float"
  | .text _ => "str"
  | .list _ => "list"
  | .dict _ => "dict"
  | .typed _ => "TypedValue"

/-- A dictionary in which a repeated key keeps its place and takes its last datum. -/
def ofPairs (entries : List (CodePoints × Datum)) : Datum :=
  .dict (entries.foldl (fun kept (key, item) => Bindings.putEntry key item kept) [])

/-- The entries of a dictionary by name. No name of a variable holds half of a surrogate pair,
so a key that does is as little known under the replacement character. -/
def byName (entries : List (CodePoints × Datum)) : Bindings Datum :=
  Bindings.ofList (entries.map fun (key, item) => (key.replaced, item))

/-- The plain datum of a value. -/
def ofValue : Value → Datum
  | .string content => .text content
  | .number (.integer value) => .integer value
  | .number (.real value) => .real (.finite value)
  | .boolean value => .boolean value
  | .color content => .text content

/-- A truth value in a message. -/
def shownTruth : Bool → String
  | true => "True"
  | false => "False"

/-- The plain datum of a value in a message. -/
def shownPlain : Value → String
  | .string content => Text.quotedPoints content
  | .number value => String.ofList value.shown
  | .boolean value => shownTruth value
  | .color content => Text.quotedPoints content

/-- A value in a message together with its kind. -/
def shownTyped (value : Value) : String :=
  let word := value.kind.name
  s!"TypedValue(type=<VarType.{word.toUpper}: '{word}'>, value={shownPlain value})"

mutual

/-- A datum in a message. -/
def shown : Datum → String
  | .none => "None"
  | .boolean value => shownTruth value
  | .integer value => String.ofList (Digits.write value)
  | .real value => String.ofList value.write
  | .text value => Text.quotedPoints value
  | .list items => "[" ++ String.intercalate ", " (shownItems items) ++ "]"
  | .dict entries => "\x7b" ++ String.intercalate ", " (shownEntries entries) ++ "\x7d"
  | .typed value => shownTyped value

/-- The items of a list in a message. -/
def shownItems : List Datum → List String
  | [] => []
  | item :: rest => shown item :: shownItems rest

/-- The entries of a dictionary in a message. -/
def shownEntries : List (CodePoints × Datum) → List String
  | [] => []
  | (key, item) :: rest => s!"{Text.quotedPoints key}: {shown item}" :: shownEntries rest

end

mutual

/-- Whether a datum has a text: it holds no whole number with too many digits. -/
def writable : Datum → Bool
  | .integer value => Digits.fits value
  | .list items => writableItems items
  | .dict entries => writableEntries entries
  | .typed value => value.writable
  | _ => true

/-- Whether all items of a list have a text. -/
def writableItems : List Datum → Bool
  | [] => true
  | item :: rest => writable item && writableItems rest

/-- Whether all entries of a dictionary have a text. -/
def writableEntries : List (CodePoints × Datum) → Bool
  | [] => true
  | (_, item) :: rest => writable item && writableEntries rest

end

/-- Why a datum has no natural kind. -/
inductive WrapFault
  /-- It is a number that is not finite. -/
  | notFinite (value : Binary64.Extended)
  /-- No variable can hold a datum of its sort. -/
  | unsupported (sort : String)
  deriving DecidableEq

/-- The fault in words. -/
def WrapFault.message : WrapFault → String
  | .notFinite value => s!"Non-finite number: {String.ofList value.write}"
  | .unsupported sort => s!"Unsupported value type: {sort}"

/-- The value of the natural kind of a datum; a value of a kind is taken as it is. -/
def wrap : Datum → Except WrapFault Value
  | .typed value => .ok value
  | .boolean value => .ok (.boolean value)
  | .integer value => .ok (.number (.integer value))
  | .real (.finite value) => .ok (.number (.real value))
  | .real value => .error (.notFinite value)
  | .text value => .ok (.string value)
  | datum => .error (.unsupported datum.sort)

/-- Why a datum is no value of a stated kind. -/
inductive TagFault
  /-- Its sort is none of those that values are made of. -/
  | notPlain
  /-- Its sort is that of another kind, or it is not finite. -/
  | wrongKind (datum : Datum) (kind : Kind)

/-- The value of a stated kind with a datum as its content. The text of a color is not judged. -/
def tag (kind : Kind) (datum : Datum) : Except TagFault Value :=
  match kind, datum with
  | .string, .text value => .ok (.string value)
  | .color, .text value => .ok (.color value)
  | .number, .integer value => .ok (.number (.integer value))
  | .number, .real (.finite value) => .ok (.number (.real value))
  | .boolean, .boolean value => .ok (.boolean value)
  | _, .none => .error .notPlain
  | _, .list _ => .error .notPlain
  | _, .dict _ => .error .notPlain
  | _, .typed _ => .error .notPlain
  | _, _ => .error (.wrongKind datum kind)

/-- The text of a message that would have to show a whole number with too many digits. -/
def tooManyDigits : String :=
  s!"Exceeds the limit ({Digits.limit} digits) for integer string conversion; " ++
    "use sys.set_int_max_str_digits() to increase the limit"

/-- The fault in words, if there are any for it. -/
def TagFault.message? : TagFault → Option String
  | .notPlain => Option.none
  | .wrongKind datum kind =>
    if datum.writable then
      some s!"Value error, value {datum.shown} does not belong to type '{kind.name}'"
    else some s!"Value error, {tooManyDigits}"

end Datum

end EditableTemplate
