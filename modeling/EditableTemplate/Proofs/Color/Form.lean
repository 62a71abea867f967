import EditableTemplate.Color
import EditableTemplate.Proofs.Number.Literal

/-!
# The forms of colors

What a color can look like without blank characters around it (`Color.Written`): a listed name, a
number sign with hexadecimal digits, or a function with its channels (`Color.FunctionForm`). A
leading channel is a number, perhaps with a per cent sign and the unit of degrees, and a separator
follows it; the last channel is a run of digits and points. Two channels or three come before the
last one.
-/

namespace EditableTemplate.Color

/-- A character stands for a letter: it is the letter, its capital, or the long form of the letter
`s`. -/
def IsLetter (letter c : Char) : Prop :=
  c = letter ∨ c = letter.toUpper ∨ letter = 's' ∧ c = Char.ofNat 0x17F

/-- The characters of a text stand for the letters of a word. -/
def Spells (word text : List Char) : Prop :=
  List.Forall₂ IsLetter word text

/-- An optional per cent sign. -/
def percentText (percent : Bool) : List Char :=
  if percent then ['%'] else []

/-! ## Channels -/

/-- A leading channel, as written. -/
structure Channel where
  /-- The number. -/
  number : NumberLiteral
  /-- Whether a per cent sign follows it. -/
  percent : Bool
  /-- The unit of degrees, or nothing. -/
  unit : List Char

/-- The channel as text. -/
def Channel.text (channel : Channel) : List Char :=
  channel.number.text ++ percentText channel.percent ++ channel.unit

/-- The number has no exponent, and the unit is that of degrees. -/
structure Channel.WellFormed (channel : Channel) : Prop where
  number : channel.number.WellFormed
  plain : channel.number.exponent = none
  unit : channel.unit = [] ∨ Spells ['d', 'e', 'g'] channel.unit

/-- What separates a leading channel from the next one, as written. -/
inductive Separator
  /-- Blank characters. -/
  | blanks (run : List Char)
  /-- One comma between blank characters, if there are any. -/
  | comma (before after : List Char)

/-- The separator as text. -/
def Separator.text : Separator → List Char
  | .blanks run => run
  | .comma before after => before ++ ',' :: after

/-- All but the comma are blank characters, and there is one at least. -/
def Separator.WellFormed : Separator → Prop
  | .blanks run => run ≠ [] ∧ ∀ c ∈ run, Text.isBlank c = true
  | .comma before after =>
    (∀ c ∈ before, Text.isBlank c = true) ∧ ∀ c ∈ after, Text.isBlank c = true

/-- The last channel, as written. -/
structure LastChannel where
  /-- The digits and points. -/
  run : List Char
  /-- Whether a per cent sign follows them. -/
  percent : Bool

/-- The last channel as text. -/
def LastChannel.text (last : LastChannel) : List Char :=
  last.run ++ percentText last.percent

/-- Whether a character is a digit or a point. -/
def inLastRun (c : Char) : Bool :=
  Text.isDigit c || c = '.'

/-- There are digits or points, in any order. -/
structure LastChannel.WellFormed (last : LastChannel) : Prop where
  nonempty : last.run ≠ []
  run : ∀ c ∈ last.run, inLastRun c = true

/-! ## Functions -/

/-- A color function with its channels, as written. -/
structure FunctionForm where
  /-- The name of the function. -/
  name : List Char
  /-- The blank characters after the opening parenthesis. -/
  before : List Char
  /-- The leading channels, each with the separator after it. -/
  leading : List (Channel × Separator)
  /-- The last channel. -/
  last : LastChannel
  /-- The blank characters before the closing parenthesis. -/
  after : List Char

namespace FunctionForm

/-- Leading channels as text. -/
def leadingText (leading : List (Channel × Separator)) : List Char :=
  leading.flatMap fun part => part.1.text ++ part.2.text

/-- The leading channels are written one after the other, each with its separator. -/
theorem leadingText_cons (part : Channel × Separator) (leading : List (Channel × Separator))
    (rest : List Char) :
    leadingText (part :: leading) ++ rest =
      part.1.text ++ (part.2.text ++ (leadingText leading ++ rest)) := by
  simp only [leadingText, List.flatMap_cons, List.append_assoc]

/-- The channels and the closing parenthesis as text. -/
def channelsText (form : FunctionForm) : List Char :=
  leadingText form.leading ++ (form.last.text ++ (form.after ++ [')']))

/-- The function as text. -/
def text (form : FunctionForm) : List Char :=
  form.name ++ '(' :: (form.before ++ form.channelsText)

/-- The names of color functions. -/
def words : List (List Char) :=
  [['r', 'g', 'b'], ['r', 'g', 'b', 'a'], ['h', 's', 'l'], ['h', 's', 'l', 'a']]

/-- The parts are what they should be, and two or three channels lead. -/
structure WellFormed (form : FunctionForm) : Prop where
  name : ∃ word ∈ words, Spells word form.name
  before : ∀ c ∈ form.before, Text.isBlank c = true
  count : form.leading.length = 2 ∨ form.leading.length = 3
  leading : ∀ part ∈ form.leading, part.1.WellFormed ∧ part.2.WellFormed
  last : form.last.WellFormed
  after : ∀ c ∈ form.after, Text.isBlank c = true

end FunctionForm

/-! ## Colors -/

/-- The hexadecimal digits. -/
def hexDigits : List Char :=
  "0123456789abcdefABCDEF".toList

/-- A text is a color without blank characters around it. -/
inductive Written : List Char → Prop
  | name {text : List Char} {word : String} (listed : word ∈ Color.names)
      (same : text.map Text.lower = word.toList) : Written text
  | hex {digits : List Char} (hexadecimal : ∀ c ∈ digits, c ∈ hexDigits)
      (count : digits.length ∈ [3, 4, 6, 8]) : Written ('#' :: digits)
  | function {form : FunctionForm} (formed : form.WellFormed) : Written form.text

end EditableTemplate.Color
