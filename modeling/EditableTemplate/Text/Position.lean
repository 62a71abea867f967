/-!
# Positions in a text

An offset counts characters from the start of a text. `Position.ofOffset` turns it into a line and
a column, both counted from one, where only the newline character ends a line. An offset outside
the text means its nearer end.
-/

namespace EditableTemplate

/-- A place in a text as a person counts it. -/
structure Position where
  /-- The line, counted from one. -/
  line : Nat
  /-- The column within the line, counted from one. -/
  column : Nat
  deriving DecidableEq, Repr

/-- The offset of the character boundary nearest to a number. -/
def Position.clamp (length : Nat) (offset : Int) : Nat :=
  min offset.toNat length

/-- The position of a character boundary: the newlines before it number the line, and the
characters after the last of them number the column. -/
def Position.ofOffset (text : List Char) (offset : Int) : Position :=
  let before := text.take (Position.clamp text.length offset)
  { line := before.count '\n' + 1
    column := (before.reverse.takeWhile (· ≠ '\n')).length + 1 }

end EditableTemplate
