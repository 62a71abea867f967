import EditableTemplate.Text.Blank
import EditableTemplate.Text.CodePoint
import EditableTemplate.Text.DecimalDigit
import EditableTemplate.Text.LowerCase

/-!
# Colors

A color is written in one of three forms, blank characters around it aside: a name of the style
sheet language, a number sign with hexadecimal digits, or a function (`rgb`, `rgba`, `hsl`,
`hsla`) of three or four channels. Letter case is ignored, and the long `s` and the Kelvin sign
count as the letters that they look like. Ranges of channels are not checked. `Color.isValid` judges
a text, and `Color.ofText?` takes the color out of the blank characters around it.
-/

namespace EditableTemplate.Color

/-- The names of colors. -/
def names : List String :=
  [
    "aliceblue", "antiquewhite", "aqua", "aquamarine", "azure", "beige", "bisque", "black",
    "blanchedalmond", "blue", "blueviolet", "brown", "burlywood", "cadetblue", "chartreuse",
    "chocolate", "coral", "cornflowerblue", "cornsilk", "crimson", "currentcolor", "cyan",
    "darkblue", "darkcyan", "darkgoldenrod", "darkgray", "darkgreen", "darkgrey", "darkkhaki",
    "darkmagenta", "darkolivegreen", "darkorange", "darkorchid", "darkred", "darksalmon",
    "darkseagreen", "darkslateblue", "darkslategray", "darkslategrey", "darkturquoise",
    "darkviolet", "deeppink", "deepskyblue", "dimgray", "dimgrey", "dodgerblue", "firebrick",
    "floralwhite", "forestgreen", "fuchsia", "gainsboro", "ghostwhite", "gold", "goldenrod",
    "gray", "green", "greenyellow", "grey", "honeydew", "hotpink", "indianred", "indigo", "ivory",
    "khaki", "lavender", "lavenderblush", "lawngreen", "lemonchiffon", "lightblue", "lightcoral",
    "lightcyan", "lightgoldenrodyellow", "lightgray", "lightgreen", "lightgrey", "lightpink",
    "lightsalmon", "lightseagreen", "lightskyblue", "lightslategray", "lightslategrey",
    "lightsteelblue", "lightyellow", "lime", "limegreen", "linen", "magenta", "maroon",
    "mediumaquamarine", "mediumblue", "mediumorchid", "mediumpurple", "mediumseagreen",
    "mediumslateblue", "mediumspringgreen", "mediumturquoise", "mediumvioletred", "midnightblue",
    "mintcream", "mistyrose", "moccasin", "navajowhite", "navy", "oldlace", "olive", "olivedrab",
    "orange", "orangered", "orchid", "palegoldenrod", "palegreen", "paleturquoise",
    "palevioletred", "papayawhip", "peachpuff", "peru", "pink", "plum", "powderblue", "purple",
    "rebeccapurple", "red", "rosybrown", "royalblue", "saddlebrown", "salmon", "sandybrown",
    "seagreen", "seashell", "sienna", "silver", "skyblue", "slateblue", "slategray", "slategrey",
    "snow", "springgreen", "steelblue", "tan", "teal", "thistle", "tomato", "transparent",
    "turquoise", "violet", "wheat", "white", "whitesmoke", "yellow", "yellowgreen"]

/-- A character of a function in lower case. -/
def lowerFunction (c : Char) : Char :=
  if c.toNat = 0x017F then 's' else c.toLower

/-- Whether a text is the name of a color. -/
def isName (text : List Char) : Bool :=
  names.contains (String.ofList (text.map Text.lower))

/-- Whether a character is an ASCII hexadecimal digit. -/
def isHexDigit (c : Char) : Bool :=
  c.isDigit || ('a' ≤ c.toLower && c.toLower ≤ 'f')

/-- Whether a text is a number sign with three, four, six or eight hexadecimal digits. -/
def isHex : List Char → Bool
  | '#' :: digits => digits.all isHexDigit && [3, 4, 6, 8].contains digits.length
  | _ => false

/-- What follows a word at the start of a text, letter case ignored. -/
def dropWord? (word : List Char) (text : List Char) : Option (List Char) :=
  if (text.take word.length).map lowerFunction = word then some (text.drop word.length) else none

/-- What follows a word at the start of a text if the word stands there, else the text. -/
def dropOptional (word : List Char) (text : List Char) : List Char :=
  (dropWord? word text).getD text

/-- What follows one or more digits. -/
def dropDigits? (text : List Char) : Option (List Char) :=
  match text.takeWhile Text.isDigit with
  | [] => none
  | _ => some (text.dropWhile Text.isDigit)

/-- What follows a point with digits if one stands there, else the text. -/
def dropFraction : List Char → List Char
  | '.' :: rest => (dropDigits? rest).getD ('.' :: rest)
  | text => text

/-- What follows a leading channel: digits, perhaps with a minus sign, a fraction, a per cent sign
and the unit of degrees. -/
def dropChannel? (text : List Char) : Option (List Char) := do
  let rest ← dropDigits? (dropOptional ['-'] text)
  pure (dropOptional ['d', 'e', 'g'] (dropOptional ['%'] (dropFraction rest)))

/-- What follows a separator: one comma between blank characters, or blank characters alone. -/
def dropSeparator? (text : List Char) : Option (List Char) :=
  match Text.trimStart text with
  | ',' :: rest => some (Text.trimStart rest)
  | rest => if rest.length < text.length then some rest else none

/-- What follows so many leading channels, each with its separator. -/
def dropChannels? : Nat → List Char → Option (List Char)
  | 0, text => some text
  | count + 1, text => do
    let afterChannel ← dropChannel? text
    let rest ← dropSeparator? afterChannel
    dropChannels? count rest

/-- Whether a text is a last channel, digits and points with an optional per cent sign, and the
closing parenthesis. -/
def isClosing (text : List Char) : Bool :=
  let inLast (c : Char) : Bool := Text.isDigit c || c = '.'
  match text.takeWhile inLast with
  | [] => false
  | _ => Text.trimStart (dropOptional ['%'] (text.dropWhile inLast)) = [')']

/-- Whether a text is a last channel after so many leading ones. -/
def closesAfter (leading : Nat) (text : List Char) : Bool :=
  match dropChannels? leading text with
  | some rest => isClosing rest
  | none => false

/-- Whether a text is the name of a color function, `a` for a fourth channel included, and an
opening parenthesis; what follows it. -/
def dropOpening? (text : List Char) : Option (List Char) := do
  let rest ← (dropWord? ['r', 'g', 'b'] text).or (dropWord? ['h', 's', 'l'] text)
  dropWord? ['('] (dropOptional ['a'] rest)

/-- Whether a text is a color function of three or four channels. -/
def isFunction (text : List Char) : Bool :=
  match dropOpening? text with
  | some rest =>
    let channels := Text.trimStart rest
    closesAfter 3 channels || closesAfter 2 channels
  | none => false

/-- Whether a text, blank characters around it aside, is a color. -/
def isValid (text : List Char) : Bool :=
  let candidate := Text.trim text
  isName candidate || isHex candidate || isFunction candidate

/-- The color that a text is, without the blank characters around it. No color holds half of a
surrogate pair. -/
def ofText? (text : CodePoints) : Option CodePoints :=
  match text.plain? with
  | some chars => if isValid chars then some (CodePoints.ofChars (Text.trim chars)) else none
  | none => none

end EditableTemplate.Color
