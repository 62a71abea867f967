import EditableTemplate.Number.Digits
import EditableTemplate.Text.Blank

/-!
# Whole numbers in settings

A setting that is a whole number is written in ASCII digits, with liberties: white space around it,
one plus sign or a minus sign, leading zeros, single underscores between digits, and a fraction of
zeros. `WholeNumber.read?` takes the liberties away one after the other and reads what is left, a
number in its one strict form. So a minus sign may stand before leading zeros or after them, but not
on both sides.
-/

namespace EditableTemplate.WholeNumber

/-- Whether a character is white space; the information separators are not. -/
def isSpace (c : Char) : Bool :=
  Text.isBlank c && !(0x1C ≤ c.toNat && c.toNat ≤ 0x1F)

/-- The text without white space at both ends. -/
def trim (text : List Char) : List Char :=
  ((text.dropWhile isSpace).reverse.dropWhile isSpace).reverse

/-- The text without a plus sign at its start; no minus sign may follow one. -/
def dropPlus? : List Char → Option (List Char)
  | '+' :: '-' :: _ => none
  | '+' :: rest => some rest
  | text => some text

/-- Whether a character may start a number without leading zeros. -/
def isStart (c : Char) : Bool :=
  ('1' ≤ c && c ≤ '9') || c = '-'

/-- The text from the first character that may start a number, past zeros and underscores. A zero
before a point is kept, and so is the last character if there is nothing else; the one passed over
last is given. -/
def skipZeros? (last : Char) : List Char → Option (List Char)
  | [] => some [last]
  | c :: rest =>
    if c = '0' ∨ c = '_' then skipZeros? c rest
    else if isStart c then some (c :: rest)
    else if c = '.' then some (last :: c :: rest)
    else none

/-- The text without leading zeros; it has no sign before them. -/
def dropUnsignedZeros? : List Char → Option (List Char)
  | [] => none
  | c :: rest =>
    if c = '0' then skipZeros? c rest
    else if isStart c then some (c :: rest)
    else none

/-- The text without leading zeros; a minus sign before them is kept. -/
def dropZeros? : List Char → Option (List Char)
  | '-' :: rest => (dropUnsignedZeros? rest).map ('-' :: ·)
  | text => dropUnsignedZeros? text

/-- The text without a fraction of one or more zeros. -/
def dropFraction (text : List Char) : List Char :=
  match text.dropWhile (· ≠ '.') with
  | '.' :: '0' :: zeros => if zeros.all (· = '0') then text.takeWhile (· ≠ '.') else text
  | _ => text

/-- Whether two underscores stand side by side. -/
def hasGap : List Char → Bool
  | '_' :: '_' :: _ => true
  | _ :: rest => hasGap rest
  | [] => false

/-- The text without its underscores, which may neither start nor end it nor stand side by side. -/
def dropUnderscores? (text : List Char) : Option (List Char) :=
  if text.head? = some '_' || text.getLast? = some '_' || hasGap text then none
  else some (text.filter (· ≠ '_'))

/-- The number that digits spell, at most `Digits.limit` of them; only zero itself starts with a
zero. -/
def natural? (text : List Char) : Option Nat :=
  match text with
  | [] => none
  | ['0'] => some 0
  | '0' :: _ => none
  | text =>
    if text.length ≤ Digits.limit && text.all Char.isDigit then
      some (Digits.value (text.map fun c => c.toNat - '0'.toNat))
    else none

/-- The whole number in its strict form. -/
def strict? : List Char → Option Int
  | '-' :: digits => (natural? digits).map fun value => -(value : Int)
  | digits => (natural? digits).map fun value => (value : Int)

/-- The whole number that a text stands for. Of its strict form only the digits are counted against
`Digits.limit`. -/
def read? (text : String) : Option Int := do
  let signed ← dropPlus? (trim text.toList)
  let started ← dropZeros? signed
  strict? (← dropUnderscores? (dropFraction started))

end EditableTemplate.WholeNumber
