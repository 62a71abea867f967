import EditableTemplate.Text.Range

/-!
# Blank characters

Blank characters separate tokens and are trimmed from the ends of placeholders, colors and values
given as text. `Text.trim` removes them at both ends; the text is the trimmed part between two
blank runs (`Text.trimStart_append`, `Text.trimEnd_append`).
-/

namespace EditableTemplate.Text

/-- The code points of white space: the ASCII control characters that move the cursor, the four
information separators, the space, the next-line and no-break characters, and the Unicode
separators. -/
def blankRanges : Ranges :=
  [(0x0009, 0x000D), (0x001C, 0x0020), (0x0085, 0x0085), (0x00A0, 0x00A0), (0x1680, 0x1680),
    (0x2000, 0x200A), (0x2028, 0x2029), (0x202F, 0x202F), (0x205F, 0x205F), (0x3000, 0x3000)]

/-- Whether a character is white space. -/
def isBlank (c : Char) : Bool :=
  blankRanges.covers c

/-- The leading run of blank characters removed. -/
def trimStart (text : List Char) : List Char :=
  text.dropWhile isBlank

/-- The trailing run of blank characters removed. -/
def trimEnd (text : List Char) : List Char :=
  (text.reverse.dropWhile isBlank).reverse

/-- The blank characters at both ends removed. -/
def trim (text : List Char) : List Char :=
  trimEnd (trimStart text)

/-- A text is its leading blank run followed by what `trimStart` leaves. -/
theorem trimStart_append (text : List Char) :
    text.takeWhile isBlank ++ trimStart text = text :=
  List.takeWhile_append_dropWhile

/-- A text is what `trimEnd` leaves followed by its trailing blank run. -/
theorem trimEnd_append (text : List Char) :
    trimEnd text ++ (text.reverse.takeWhile isBlank).reverse = text := by
  rw [trimEnd, ← List.reverse_append, List.takeWhile_append_dropWhile, List.reverse_reverse]

end EditableTemplate.Text
