import EditableTemplate.Datum

/-!
# Writing JSON

`Json.write` writes plain data as JSON in ASCII: what else a text holds is escaped by 16-bit units.
On one line the parts are separated by a comma or a colon and a space; `Json.writeLines` gives every
part a line of its own.
-/

namespace EditableTemplate.Json

/-- The escape of a 16-bit unit. -/
def unitEscape (unit : Nat) : List Char :=
  '\\' :: 'u' :: Text.hexDigits 4 unit

/-- One character within a string. -/
def escapeChar (c : Char) : List Char :=
  let code := c.toNat
  if c = Text.doubleQuote ∨ c = '\\' then ['\\', c]
  else if c = '\n' then ['\\', 'n']
  else if c = '\r' then ['\\', 'r']
  else if c = '\t' then ['\\', 't']
  else if code = 0x08 then ['\\', 'b']
  else if code = 0x0C then ['\\', 'f']
  else if 0x20 ≤ code ∧ code < 0x7F then [c]
  else if code < 0x10000 then unitEscape code
  else unitEscape (0xD800 + (code - 0x10000) / 0x400) ++
    unitEscape (0xDC00 + (code - 0x10000) % 0x400)

/-- One code point within a string. -/
def escapePoint : CodePoint → List Char
  | .character c => escapeChar c
  | .surrogate index => unitEscape (CodePoint.surrogate index).value

/-- A string. -/
def writeString (text : CodePoints) : String :=
  String.ofList (Text.doubleQuote :: text.flatMap escapePoint ++ [Text.doubleQuote])

/-- A binary value; those that are not finite have names. -/
def writeReal : Binary64.Extended → String
  | .finite value => String.ofList value.write
  | .infinite false => "Infinity"
  | .infinite true => "-Infinity"
  | .nan => "NaN"

/-- A truth value. -/
def writeTruth (value : Bool) : String :=
  String.ofList (Value.truth value)

/-- A value of a kind, by its plain datum. -/
def writeValue : Value → String
  | .string text => writeString text
  | .number (.integer value) => String.ofList (Digits.write value)
  | .number (.real value) => String.ofList value.write
  | .boolean value => writeTruth value
  | .color text => writeString text

/-- How the parts of a list or an object are set. -/
structure Style where
  /-- What stands before the first part, given the depth of the parts. -/
  opening : Nat → String
  /-- What stands between two parts. -/
  between : Nat → String
  /-- What stands after the last part, given the depth outside. -/
  closing : Nat → String

/-- A new line, indented by two spaces for each level. -/
def newline (level : Nat) : String :=
  "\n" ++ String.ofList (List.replicate (2 * level) ' ')

/-- All on one line. -/
def Style.line : Style := ⟨fun _ => "", fun _ => ", ", fun _ => ""⟩

/-- Every part on a line of its own. -/
def Style.lines : Style := ⟨newline, fun level => "," ++ newline level, newline⟩

/-- Some parts between brackets. -/
def Style.bracket (style : Style) (level : Nat) (before after : String) (parts : List String) :
    String :=
  if parts.isEmpty then before ++ after
  else before ++ style.opening (level + 1) ++
    String.intercalate (style.between (level + 1)) parts ++ style.closing level ++ after

mutual

/-- A datum that stands at a level. -/
def writeAt (style : Style) (level : Nat) : Datum → String
  | .none => "null"
  | .boolean value => writeTruth value
  | .integer value => String.ofList (Digits.write value)
  | .real value => writeReal value
  | .text value => writeString value
  | .list items => style.bracket level "[" "]" (writeItems style (level + 1) items)
  | .dict entries => style.bracket level "\x7b" "\x7d" (writeEntries style (level + 1) entries)
  | .typed value => writeValue value

/-- The items of a list. -/
def writeItems (style : Style) (level : Nat) : List Datum → List String
  | [] => []
  | item :: rest => writeAt style level item :: writeItems style level rest

/-- The entries of an object. -/
def writeEntries (style : Style) (level : Nat) : List (CodePoints × Datum) → List String
  | [] => []
  | (key, item) :: rest =>
    (writeString key ++ ": " ++ writeAt style level item) :: writeEntries style level rest

end

/-- A datum on one line. -/
def write (datum : Datum) : String :=
  writeAt .line 0 datum

/-- A datum with a line for every part. -/
def writeLines (datum : Datum) : String :=
  writeAt .lines 0 datum

end EditableTemplate.Json
