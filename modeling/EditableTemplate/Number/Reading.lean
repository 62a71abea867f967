import EditableTemplate.Number.Basic

/-!
# Numbers given as text

A number given outside a template, on a command line or in a form field, may have a plus sign,
single underscores between digits, digits of any script, and for a binary value also a missing
whole or fractional part and the names of the values that are not finite. `Reading.number?` takes
the whole number if the text is one, and otherwise the binary value.
-/

namespace EditableTemplate.Reading

/-- A leading sign removed; whether it was a minus. -/
def sign : List Char → Bool × List Char
  | '-' :: rest => (true, rest)
  | '+' :: rest => (false, rest)
  | text => (false, text)

/-- The values of digits with single underscores between them. -/
def grouped? : List Char → Option (List Nat)
  | [] => none
  | [c] => (Text.digitValue? c).map ([·])
  | c :: '_' :: rest => do
    let digit ← Text.digitValue? c
    let digits ← grouped? rest
    pure (digit :: digits)
  | c :: rest => do
    let digit ← Text.digitValue? c
    let digits ← grouped? rest
    pure (digit :: digits)

/-- Whether a character may stand in a run of digits. -/
def inRun (c : Char) : Bool :=
  Text.isDigit c || c = '_'

/-- The values of the leading run of digits, and what follows it. An empty run has no values. -/
def run? (text : List Char) : Option (List Nat × List Char) :=
  match text.takeWhile inRun with
  | [] => some ([], text)
  | digits => (grouped? digits).map (·, text.dropWhile inRun)

/-- A whole number. -/
def integer? (text : List Char) : Option Int :=
  let (negative, digits) := sign text
  (grouped? digits).bind (Digits.readSigned? negative)

/-- The names of the values that are not finite, letter case ignored. -/
def special? (negative : Bool) (text : List Char) : Option Binary64.Extended :=
  match String.ofList (text.map Char.toLower) with
  | "inf" => some (.infinite negative)
  | "infinity" => some (.infinite negative)
  | "nan" => some .nan
  | _ => none

/-- The power of ten after the digits; zero if the text has ended. -/
def exponent? : List Char → Option Int
  | [] => some 0
  | marker :: text =>
    let (negative, digits) := sign text
    if marker = 'e' ∨ marker = 'E' then
      (grouped? digits).map fun values => Digits.signed negative (Digits.value values)
    else none

/-- A decimal with a point or an exponent or neither, rounded to the nearest binary value. -/
def decimal? (negative : Bool) (text : List Char) : Option Binary64.Extended := do
  let (whole, rest) ← run? text
  let (fraction, rest) ← match rest with
    | '.' :: rest => run? rest
    | _ => some ([], rest)
  let power ← exponent? rest
  if whole.isEmpty && fraction.isEmpty then none
  else
    let rounded := Binary64.ofDecimal negative (Digits.value (whole ++ fraction))
      (power - fraction.length)
    some (.ofRounded negative rounded)

/-- A binary value. -/
def real? (text : List Char) : Option Binary64.Extended :=
  let (negative, rest) := sign text
  match special? negative rest with
  | some value => some value
  | none => decimal? negative rest

/-- What a text reads as: a number, or a value that is not finite. -/
inductive Outcome
  /-- A number. -/
  | number (value : Number)
  /-- An infinity, or no number. -/
  | notFinite
  deriving DecidableEq

/-- The number that a text stands for, if it is the text of one. -/
def number? (text : List Char) : Option Outcome :=
  match integer? text with
  | some value => some (.number (.integer value))
  | none => (real? text).map fun
    | .finite value => .number (.real value)
    | _ => .notFinite

end EditableTemplate.Reading
