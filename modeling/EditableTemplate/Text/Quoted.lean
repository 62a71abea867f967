import EditableTemplate.Text.CodePoint
import EditableTemplate.Text.Printable

/-!
# Quoted text

The form in which a text is shown inside a message: between apostrophes, or between double quotes
if the text holds an apostrophe and no double quote. A backslash escapes the quote in use, the
backslash itself and the line controls; a character that is not printable is written by its code
point in the shortest of three hexadecimal forms, and so is half of a surrogate pair.
-/

namespace EditableTemplate.Text

/-- The quote used unless it would have to be escaped and the other would not. -/
def singleQuote : Char := Char.ofNat 0x27

/-- The quote used for a text that holds an apostrophe and no double quote. -/
def doubleQuote : Char := Char.ofNat 0x22

/-- The lowest hexadecimal digits of a number, in lower case and in the given count. -/
def hexDigits : Nat → Nat → List Char
  | 0, _ => []
  | count + 1, number => hexDigits count (number / 16) ++ [Nat.digitChar (number % 16)]

/-- A character that is not printable, by its code point: two, four or eight digits. -/
def codeEscape (c : Char) : List Char :=
  if c.toNat < 0x100 then '\\' :: 'x' :: hexDigits 2 c.toNat
  else if c.toNat < 0x10000 then '\\' :: 'u' :: hexDigits 4 c.toNat
  else '\\' :: 'U' :: hexDigits 8 c.toNat

/-- One character as it stands between the quotes. -/
def quotedChar (quote c : Char) : List Char :=
  if c = quote ∨ c = '\\' then ['\\', c]
  else if c = '\n' then ['\\', 'n']
  else if c = '\r' then ['\\', 'r']
  else if c = '\t' then ['\\', 't']
  else if isPrintable c then [c]
  else codeEscape c

/-- One code point as it stands between the quotes. -/
def quotedPoint (quote : Char) : CodePoint → List Char
  | .character c => quotedChar quote c
  | .surrogate index => '\\' :: 'u' :: hexDigits 4 (CodePoint.surrogate index).value

/-- The quote that a text is shown in. -/
def quoteFor (text : List Char) : Char :=
  if text.contains singleQuote && !text.contains doubleQuote then doubleQuote else singleQuote

/-- Code points between quotes, with everything escaped that could not be read back. -/
def quotedPoints (text : CodePoints) : String :=
  let quote := quoteFor text.characters
  String.ofList (quote :: text.flatMap (quotedPoint quote) ++ [quote])

/-- Text between quotes, with everything escaped that could not be read back. -/
def quoted (text : String) : String :=
  quotedPoints text

end EditableTemplate.Text
