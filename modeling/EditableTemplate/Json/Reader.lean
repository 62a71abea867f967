import EditableTemplate.Datum
import EditableTemplate.Text.Position

/-!
# Reading JSON

`Json.read` reads a text as one JSON value. Besides the standard forms it takes the names of the
numbers that are not finite; of entries with one name the last counts, and half of a surrogate pair
without the other half is kept. Arrays and objects may stand in one another up to a depth
(`Json.maxDepth`). The first fault is located by the count of characters left where it stands, until
`Json.read` turns that into an offset.
-/

namespace EditableTemplate.Json

/-- What is wrong with a text. -/
inductive Reason
  /-- No value starts here. -/
  | valueExpected
  /-- An entry of an object has no name. -/
  | nameExpected
  /-- The name of an entry has no colon. -/
  | colonExpected
  /-- Neither another part nor the end follows. -/
  | commaExpected
  /-- Something follows the value. -/
  | extraData
  /-- The string that starts here is not closed. -/
  | unterminatedString
  /-- A control character stands in a string. -/
  | controlCharacter
  /-- A backslash starts no escape. -/
  | invalidEscape
  /-- An escape has too few hexadecimal digits. -/
  | invalidUnicodeEscape
  /-- The text starts with a byte order mark. -/
  | byteOrderMark
  deriving DecidableEq, Repr

/-- A value that holds others. -/
inductive Container
  /-- An array. -/
  | array
  /-- An object. -/
  | object
  deriving DecidableEq, Repr

/-- The word for a container. -/
def Container.name : Container → String
  | .array => "array"
  | .object => "object"

/-- Why a container is refused that stands in too many others, in words. -/
def Container.refusal (container : Container) : String :=
  s!"maximum recursion depth exceeded while decoding a JSON {container.name} from a unicode string"

/-- How many containers may stand in one another. -/
def maxDepth : Nat := 984

/-- Why a text is not read. -/
inductive Fault
  /-- Something is wrong at a place, given by a count of characters. -/
  | misplaced (reason : Reason) (place : Nat)
  /-- A whole number has too many digits. -/
  | tooManyDigits (count : Nat)
  /-- A container stands in too many others. -/
  | tooDeep (container : Container)
  deriving DecidableEq, Repr

/-- A fault at the start of what is left of a text. -/
def Reason.locate (reason : Reason) (left : List Char) : Fault :=
  .misplaced reason left.length

/-- The text without leading white space. -/
def skipSpace (text : List Char) : List Char :=
  text.dropWhile fun c => c = ' ' || c = '\t' || c = '\n' || c = '\r'

/-- The value of a hexadecimal digit. -/
def hexValue? (c : Char) : Option Nat :=
  if c.isDigit then some (c.toNat - '0'.toNat)
  else if 'a' ≤ c.toLower ∧ c.toLower ≤ 'f' then some (c.toLower.toNat - 'a'.toNat + 10)
  else none

/-- The number that four hexadecimal digits spell. -/
def hexQuad? (text : List Char) : Option Nat :=
  match text with
  | a :: b :: c :: d :: _ => do
    let a ← hexValue? a
    let b ← hexValue? b
    let c ← hexValue? c
    let d ← hexValue? d
    pure (a * 0x1000 + b * 0x100 + c * 0x10 + d)
  | _ => none

/-- Whether a 16-bit unit is the first half of a surrogate pair. -/
def isHighSurrogate (unit : Nat) : Bool :=
  0xD800 ≤ unit && unit < 0xDC00

/-- Whether a 16-bit unit is the second half of a surrogate pair. -/
def isLowSurrogate (unit : Nat) : Bool :=
  0xDC00 ≤ unit && unit < 0xE000

/-- The code point of a surrogate pair. -/
def pair (high low : Nat) : CodePoint :=
  .ofNat (0x10000 + (high - 0xD800) * 0x400 + (low - 0xDC00))

/-- The code point of an escape after `u`, and how many characters stand for it there. A string does
not end within or just after the digits. -/
def readUnit (text : List Char) : Except Fault (CodePoint × Nat) :=
  let invalid (left : List Char) : Fault := .misplaced .invalidUnicodeEscape (left.length + 1)
  match hexQuad? text, text.drop 4 with
  | none, _ => .error (invalid text)
  | some _, [] => .error (invalid text)
  | some high, '\\' :: 'u' :: second =>
    if isHighSurrogate high ∧ 4 < second.length then
      match hexQuad? second with
      | none => .error (invalid second)
      | some low =>
        if isLowSurrogate low then .ok (pair high low, 10) else .ok (.ofNat high, 4)
    else .ok (.ofNat high, 4)
  | some unit, _ => .ok (.ofNat unit, 4)

/-- The character that a backslash and another character stand for. -/
def simpleEscape? : Char → Option Char
  | '\\' => some '\\'
  | '/' => some '/'
  | 'b' => some (Char.ofNat 0x08)
  | 'f' => some (Char.ofNat 0x0C)
  | 'n' => some '\n'
  | 'r' => some '\r'
  | 't' => some '\t'
  | c => if c = Text.doubleQuote then some c else none

/-- The code point of an escape, from just after its backslash, and how many characters stand for
it there; the place of the opening quote is that of a string that breaks off. -/
def readEscape (opening : Nat) (text : List Char) : Except Fault (CodePoint × Nat) :=
  match text with
  | [] => .error (.misplaced .unterminatedString opening)
  | 'u' :: rest => (readUnit rest).map fun (point, count) => (point, count + 1)
  | c :: _ =>
    match simpleEscape? c with
    | some meant => .ok (.character meant, 1)
    | none => .error (.misplaced .invalidEscape (text.length + 1))

/-- The rest of a string, from just after its opening quote, whose place is given. -/
def readString (opening : Nat) (text : List Char) : Except Fault (CodePoints × List Char) :=
  match text with
  | [] => .error (.misplaced .unterminatedString opening)
  | c :: rest =>
    if c = Text.doubleQuote then .ok ([], rest)
    else if c = '\\' then
      match readEscape opening rest with
      | .error fault => .error fault
      | .ok (meant, count) =>
        (readString opening (rest.drop count)).map fun (points, after) => (meant :: points, after)
    else if c.toNat < 0x20 then .error (Reason.controlCharacter.locate text)
    else (readString opening rest).map fun (points, after) => (.character c :: points, after)
termination_by text.length
decreasing_by
  · simp only [List.length_drop, List.length_cons]
    omega
  · simp

/-- The values of leading ASCII digits, and what follows them. -/
def splitDigits (text : List Char) : List Nat × List Char :=
  ((text.takeWhile Char.isDigit).map fun c => c.toNat - '0'.toNat, text.dropWhile Char.isDigit)

/-- The digits before the point: a zero, or digits that do not start with one. -/
def splitWhole : List Char → List Nat × List Char
  | '0' :: rest => ([0], rest)
  | text => splitDigits text

/-- A point with digits after it, and what follows them. -/
def splitFraction (text : List Char) : List Nat × List Char :=
  match text with
  | '.' :: rest =>
    match splitDigits rest with
    | ([], _) => ([], text)
    | split => split
  | _ => ([], text)

/-- The sign of an exponent; whether it is a minus. -/
def splitSign : List Char → Bool × List Char
  | '-' :: rest => (true, rest)
  | '+' :: rest => (false, rest)
  | text => (false, text)

/-- An exponent with digits, and what follows it. -/
def splitExponent (text : List Char) : Option Int × List Char :=
  match text with
  | [] => (none, text)
  | marker :: rest =>
    let (negative, unsigned) := splitSign rest
    match splitDigits unsigned with
    | ([], _) => (none, text)
    | (digits, after) =>
      if marker = 'e' ∨ marker = 'E' then
        (some (Digits.signed negative (Digits.value digits)), after)
      else (none, text)

/-- The number of some parts: whole without a fraction and an exponent, else binary. -/
def number (negative : Bool) (whole fraction : List Nat) (power : Option Int) :
    Except Fault Datum :=
  match fraction, power with
  | [], none =>
    match Digits.readSigned? negative whole with
    | some value => .ok (.integer value)
    | none => .error (.tooManyDigits whole.length)
  | _, _ =>
    let rounded := Binary64.ofDecimal negative (Digits.value (whole ++ fraction))
      (power.getD 0 - fraction.length)
    .ok (.real (.ofRounded negative rounded))

/-- A number at the start of a text. -/
def readNumber (text : List Char) : Except Fault (Datum × List Char) :=
  let (negative, unsigned) := match text with
    | '-' :: rest => (true, rest)
    | _ => (false, text)
  match splitWhole unsigned with
  | ([], _) => .error (Reason.valueExpected.locate text)
  | (whole, afterWhole) =>
    let (fraction, afterFraction) := splitFraction afterWhole
    let (power, rest) := splitExponent afterFraction
    (number negative whole fraction power).map (·, rest)

/-- The words that stand for values. -/
def constants : List (String × Datum) :=
  [("null", .none), ("true", .boolean true), ("false", .boolean false), ("NaN", .real .nan),
    ("Infinity", .real (.infinite false)), ("-Infinity", .real (.infinite true))]

/-- A word for a value at the start of a text, and what follows it. -/
def readConstant? (text : List Char) : Option (Datum × List Char) :=
  constants.findSome? fun (word, value) =>
    if word.toList.isPrefixOf text then some (value, text.drop word.length) else none

/-- The name of an entry of an object. -/
def readKey (text : List Char) : Except Fault (CodePoints × List Char) :=
  match text with
  | [] => .error (Reason.nameExpected.locate text)
  | c :: rest =>
    if c = Text.doubleQuote then readString text.length rest
    else .error (Reason.nameExpected.locate text)

/-- What follows the colon after the name of an entry. -/
def readColon : List Char → Except Fault (List Char)
  | ':' :: rest => .ok rest
  | text => .error (Reason.colonExpected.locate text)

mutual

/-- A value at the start of a text. The first count bounds the steps into its parts; twice the
length of the text is enough, since every second step passes over a character. The second count is
how many containers may stand in one another. -/
def readValue : Nat → Nat → List Char → Except Fault (Datum × List Char)
  | 0, _, text => .error (Reason.valueExpected.locate text)
  | steps + 1, depth, text =>
    match text, depth with
    | [], _ => .error (Reason.valueExpected.locate text)
    | '[' :: _, 0 => .error (.tooDeep .array)
    | '[' :: rest, depth + 1 =>
      match skipSpace rest with
      | ']' :: after => .ok (.list [], after)
      | items => (readItems steps depth items).map fun (items, after) => (.list items, after)
    | '\x7b' :: _, 0 => .error (.tooDeep .object)
    | '\x7b' :: rest, depth + 1 =>
      match skipSpace rest with
      | '\x7d' :: after => .ok (.dict [], after)
      | entries => (readEntries steps depth entries).map fun (entries, after) =>
          (Datum.ofPairs entries, after)
    | c :: rest, _ =>
      if c = Text.doubleQuote then
        (readString text.length rest).map fun (points, after) => (.text points, after)
      else match readConstant? text with
        | some found => .ok found
        | none => readNumber text

/-- The items of an array up to and with its closing bracket. -/
def readItems : Nat → Nat → List Char → Except Fault (List Datum × List Char)
  | 0, _, text => .error (Reason.valueExpected.locate text)
  | steps + 1, depth, text => do
    let (item, afterItem) ← readValue steps depth text
    match skipSpace afterItem with
    | ']' :: after => pure ([item], after)
    | ',' :: rest =>
      let (items, after) ← readItems steps depth (skipSpace rest)
      pure (item :: items, after)
    | left => throw (Reason.commaExpected.locate left)

/-- The entries of an object up to and with its closing brace. -/
def readEntries : Nat → Nat → List Char → Except Fault (List (CodePoints × Datum) × List Char)
  | 0, _, text => .error (Reason.valueExpected.locate text)
  | steps + 1, depth, text => do
    let (key, afterKey) ← readKey text
    let content ← readColon (skipSpace afterKey)
    let (item, afterItem) ← readValue steps depth (skipSpace content)
    match skipSpace afterItem with
    | '\x7d' :: after => pure ([(key, item)], after)
    | ',' :: rest =>
      let (entries, after) ← readEntries steps depth (skipSpace rest)
      pure ((key, item) :: entries, after)
    | left => throw (Reason.commaExpected.locate left)

end

/-- The fault with its place as an offset of a text of the given length. -/
def Fault.fromStart (length : Nat) : Fault → Fault
  | .misplaced reason left => .misplaced reason (length - left)
  | fault => fault

/-- The value that a text is, white space around it aside. -/
def readAll (text : List Char) : Except Fault Datum := do
  let (value, after) ← readValue (2 * text.length + 2) maxDepth (skipSpace text)
  match skipSpace after with
  | [] => pure value
  | left => throw (Reason.extraData.locate left)

/-- The value that a text is; a byte order mark is no part of one. -/
def read (text : List Char) : Except Fault Datum :=
  if text.head? = some (Char.ofNat 0xFEFF) then .error (.misplaced .byteOrderMark 0)
  else (readAll text).mapError (Fault.fromStart text.length)

/-- What is wrong, in words. -/
def Reason.message : Reason → String
  | .valueExpected => "Expecting value"
  | .nameExpected => "Expecting property name enclosed in double quotes"
  | .colonExpected => "Expecting ':' delimiter"
  | .commaExpected => "Expecting ',' delimiter"
  | .extraData => "Extra data"
  | .unterminatedString => "Unterminated string starting at"
  | .controlCharacter => "Invalid control character at"
  | .invalidEscape => "Invalid \\escape"
  | .invalidUnicodeEscape => "Invalid \\uXXXX escape"
  | .byteOrderMark => "Unexpected UTF-8 BOM (decode using utf-8-sig)"

/-- The fault of a text in words: what is wrong, and where. -/
def Fault.message (text : List Char) : Fault → String
  | .misplaced reason offset =>
    let position := Position.ofOffset text offset
    s!"{reason.message}: line {position.line} column {position.column} (char {offset})"
  | .tooManyDigits count =>
    s!"Exceeds the limit ({Digits.limit} digits) for integer string conversion: " ++
      s!"value has {count} digits; " ++
      "use sys.set_int_max_str_digits() to increase the limit"
  | .tooDeep container => container.refusal

end EditableTemplate.Json
