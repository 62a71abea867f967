import EditableTemplate.Number.Basic

/-!
# Number literals of templates

A literal is an optional minus sign, digits, and optionally a point with digits and an exponent
with digits. `NumberLiteral.split?` takes the longest one at the start of a text. A literal keeps
its parts, so that `NumberLiteral.text` is exactly what was read (`NumberLiteral.eq_of_split?`), and
`NumberLiteral.value?` is the number: whole without a fraction and an exponent, else binary.
-/

namespace EditableTemplate

/-- The exponent of a number literal, as written. -/
structure NumberLiteral.Exponent where
  /-- The letter that introduces it. -/
  marker : Char
  /-- Its sign, if it has one. -/
  sign : Option Char
  /-- Its digits. -/
  digits : List Char
  deriving DecidableEq, Repr

/-- A number literal, as written. -/
structure NumberLiteral where
  /-- Whether a minus sign precedes it. -/
  negative : Bool
  /-- The digits before the point. -/
  whole : List Char
  /-- The digits after the point; none if there is no point. -/
  fraction : List Char
  /-- The exponent. -/
  exponent : Option NumberLiteral.Exponent
  deriving DecidableEq, Repr

namespace NumberLiteral

/-- A sign as text. -/
def signText (negative : Bool) : List Char :=
  if negative then ['-'] else []

/-- A fraction as text: nothing, or a point and its digits. -/
def fractionText : List Char → List Char
  | [] => []
  | digits => '.' :: digits

/-- An exponent as text. -/
def exponentText : Option Exponent → List Char
  | none => []
  | some exponent => exponent.marker :: exponent.sign.toList ++ exponent.digits

/-- The literal as text. -/
def text (literal : NumberLiteral) : List Char :=
  signText literal.negative ++ literal.whole ++ fractionText literal.fraction ++
    exponentText literal.exponent

/-- A leading minus sign, and what follows it. -/
def splitSign : List Char → Bool × List Char
  | '-' :: rest => (true, rest)
  | text => (false, text)

/-- A point with digits after it, and what follows them; a point alone is left in place. -/
def splitFraction : List Char → List Char × List Char
  | '.' :: rest =>
    if rest.takeWhile Text.isDigit = [] then ([], '.' :: rest)
    else (rest.takeWhile Text.isDigit, rest.dropWhile Text.isDigit)
  | text => ([], text)

/-- The sign of an exponent, and what follows it. -/
def splitExponentSign : List Char → Option Char × List Char
  | '-' :: rest => (some '-', rest)
  | '+' :: rest => (some '+', rest)
  | text => (none, text)

/-- An exponent with digits, and what follows it; a letter without digits is left in place. -/
def splitExponent : List Char → Option Exponent × List Char
  | [] => (none, [])
  | marker :: rest =>
    let (sign, unsigned) := splitExponentSign rest
    let digits := unsigned.takeWhile Text.isDigit
    if (marker = 'e' ∨ marker = 'E') ∧ digits ≠ [] then
      (some ⟨marker, sign, digits⟩, unsigned.dropWhile Text.isDigit)
    else (none, marker :: rest)

/-- The longest literal at the start of a text, and what follows it. -/
def split? (text : List Char) : Option (NumberLiteral × List Char) :=
  let (negative, unsigned) := splitSign text
  let whole := unsigned.takeWhile Text.isDigit
  let (fraction, afterFraction) := splitFraction (unsigned.dropWhile Text.isDigit)
  let (exponent, rest) := splitExponent afterFraction
  if whole = [] then none else some (⟨negative, whole, fraction, exponent⟩, rest)

/-- What was split off as a sign and what is left make up the text. -/
theorem signText_splitSign (text : List Char) :
    signText (splitSign text).1 ++ (splitSign text).2 = text := by
  fun_cases splitSign text <;> simp [signText]

/-- What was split off as a fraction and what is left make up the text. -/
theorem fractionText_splitFraction (text : List Char) :
    fractionText (splitFraction text).1 ++ (splitFraction text).2 = text := by
  fun_cases splitFraction text with
  | case1 rest none => simp [fractionText]
  | case2 rest some =>
    have whole : rest.takeWhile Text.isDigit ++ rest.dropWhile Text.isDigit = rest :=
      List.takeWhile_append_dropWhile
    generalize rest.takeWhile Text.isDigit = digits at some whole
    cases digits with
    | nil => exact absurd rfl some
    | cons digit more => simpa [fractionText] using whole
  | case3 => simp [fractionText]

/-- What was split off as the sign of an exponent and what is left make up the text. -/
theorem toList_splitExponentSign (text : List Char) :
    (splitExponentSign text).1.toList ++ (splitExponentSign text).2 = text := by
  fun_cases splitExponentSign text <;> simp

/-- What was split off as an exponent and what is left make up the text. -/
theorem exponentText_splitExponent (text : List Char) :
    exponentText (splitExponent text).1 ++ (splitExponent text).2 = text := by
  cases text with
  | nil => rfl
  | cons marker rest =>
    simp only [splitExponent]
    split
    · simp [exponentText, List.takeWhile_append_dropWhile, toList_splitExponentSign]
    · rfl

/-- The text of the literal at the start of a text is the part of it that was read. -/
theorem eq_of_split? {text rest : List Char} {literal : NumberLiteral}
    (split : split? text = some (literal, rest)) : text = literal.text ++ rest := by
  simp only [split?] at split
  split at split
  · cases split
  · obtain ⟨rfl, rfl⟩ := Prod.mk.inj (Option.some.inj split)
    simp [NumberLiteral.text, exponentText_splitExponent, fractionText_splitFraction,
      List.takeWhile_append_dropWhile, signText_splitSign]

/-- A literal that was read has a digit. -/
theorem whole_ne_nil_of_split? {text rest : List Char} {literal : NumberLiteral}
    (split : split? text = some (literal, rest)) : literal.whole ≠ [] := by
  simp only [split?] at split
  split at split
  · cases split
  · rename_i nonempty
    obtain ⟨rfl, rfl⟩ := Prod.mk.inj (Option.some.inj split)
    exact nonempty

/-- The number that a run of digits spells. -/
def digitsValue (digits : List Char) : Nat :=
  Digits.value (digits.filterMap Text.digitValue?)

/-- The power of ten that an exponent stands for. -/
def Exponent.power (exponent : Exponent) : Int :=
  Digits.signed (exponent.sign = some '-') (digitsValue exponent.digits)

/-- The number that a literal stands for, if it is in range: a whole number of at most
`Digits.limit` digits, or a decimal that does not round to infinity. -/
def value? (literal : NumberLiteral) : Option Number :=
  match literal.fraction, literal.exponent with
  | [], none =>
    (Digits.readSigned? literal.negative (literal.whole.filterMap Text.digitValue?)).map .integer
  | fraction, exponent =>
    let power := (exponent.map Exponent.power).getD 0
    (Binary64.ofDecimal literal.negative (digitsValue (literal.whole ++ fraction))
      (power - fraction.length)).map .real

end NumberLiteral

end EditableTemplate
