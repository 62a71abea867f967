/-!
# Texts of code points

A file of overrides can escape one half of a surrogate pair without the other. Such a half is no
character, yet it is kept, shown in messages and compared like one; only writing it out fails. A
text that may hold such halves is a list of code points (`CodePoints`), and every string is one.
`CodePoints.plain` gives the characters of a text that holds none, or the first halves that it
holds.
-/

namespace EditableTemplate

/-- A code point. -/
inductive CodePoint
  /-- A character. -/
  | character (c : Char)
  /-- A half of a surrogate pair that stands alone, by its place among the halves. -/
  | surrogate (index : Fin 0x800)
  deriving DecidableEq, Repr

namespace CodePoint

/-- The number of the first half of a surrogate pair. -/
def firstSurrogate : Nat := 0xD800

/-- The number of a code point. -/
def value : CodePoint → Nat
  | .character c => c.toNat
  | .surrogate index => firstSurrogate + index.val

/-- The code point of a number; a number that is none stands for the null character. -/
def ofNat (number : Nat) : CodePoint :=
  if half : firstSurrogate ≤ number ∧ number < firstSurrogate + 0x800 then
    .surrogate ⟨number - firstSurrogate, by omega⟩
  else .character (Char.ofNat number)

/-- The character that a code point is, if it is one. -/
def character? : CodePoint → Option Char
  | .character c => some c
  | .surrogate _ => none

/-- Whether a code point is half of a surrogate pair. -/
def isSurrogate : CodePoint → Bool
  | .character _ => false
  | .surrogate _ => true

/-- The character that stands for a code point where only characters can be. -/
def replaced : CodePoint → Char
  | .character c => c
  | .surrogate _ => Char.ofNat 0xFFFD

end CodePoint

/-- A text that may hold halves of surrogate pairs. -/
abbrev CodePoints := List CodePoint

/-- Halves of surrogate pairs that follow one another in a text. -/
structure SurrogateRun where
  /-- How many code points stand before them. -/
  position : Nat
  /-- The first of them. -/
  first : CodePoint
  /-- How many there are. -/
  length : Nat
  deriving DecidableEq, Repr

namespace CodePoints

/-- The code points of some characters. -/
def ofChars (text : List Char) : CodePoints :=
  text.map .character

/-- The code points of a string. -/
def ofString (text : String) : CodePoints :=
  ofChars text.toList

instance : Coe String CodePoints := ⟨ofString⟩

/-- The characters of a text, halves of pairs left out. -/
def characters (text : CodePoints) : List Char :=
  text.filterMap CodePoint.character?

/-- The text with the replacement character for every half of a pair. -/
def replaced (text : CodePoints) : String :=
  String.ofList (text.map CodePoint.replaced)

/-- The first halves of pairs in a text, so many code points of which stand before it. -/
def surrogateRun? (position : Nat) : CodePoints → Option SurrogateRun
  | [] => none
  | .character _ :: rest => surrogateRun? (position + 1) rest
  | .surrogate index :: rest =>
    some ⟨position, .surrogate index, (rest.takeWhile CodePoint.isSurrogate).length + 1⟩

/-- The characters of a text without halves of pairs, or else the first halves. -/
def plain (text : CodePoints) : Except SurrogateRun (List Char) :=
  match text.surrogateRun? 0 with
  | some run => .error run
  | none => .ok text.characters

/-- The characters of a text, if it holds no half of a pair. -/
def plain? (text : CodePoints) : Option (List Char) :=
  text.plain.toOption

/-- The characters among the code points of characters are those. -/
theorem characters_ofChars (text : List Char) : characters (ofChars text) = text := by
  induction text with
  | nil => rfl
  | cons c rest ih => simpa [characters, ofChars, CodePoint.character?] using ih

/-- Characters hold no half of a pair. -/
theorem surrogateRun?_ofChars (text : List Char) (position : Nat) :
    surrogateRun? position (ofChars text) = none := by
  induction text generalizing position with
  | nil => rfl
  | cons c rest ih => exact ih (position + 1)

/-- The text of some characters is plain, and they are its characters. -/
theorem plain_ofChars (text : List Char) : plain (ofChars text) = .ok text := by
  simp [plain, surrogateRun?_ofChars, characters_ofChars]

/-- A plain text is found to be its characters. -/
theorem plain?_ofChars (text : List Char) : plain? (ofChars text) = some text := by
  rw [plain?, plain_ofChars]
  rfl

/-- A text without halves of pairs is that of its characters. -/
theorem eq_ofChars_of_surrogateRun?_eq_none {text : CodePoints} {position : Nat}
    (absent : surrogateRun? position text = none) : text = ofChars text.characters := by
  induction text generalizing position with
  | nil => rfl
  | cons point rest ih =>
    cases point with
    | character c =>
      have tail : rest = ofChars (characters rest) := ih absent
      have head : characters (.character c :: rest) = c :: characters rest := rfl
      rw [head]
      exact congrArg (CodePoint.character c :: ·) tail
    | surrogate index => simp [surrogateRun?] at absent

/-- A plain text is that of the characters found in it. -/
theorem eq_ofChars_of_plain {text : CodePoints} {chars : List Char}
    (found : text.plain = .ok chars) : text = ofChars chars := by
  rw [plain] at found
  split at found
  · simp at found
  · rename_i without
    rw [← Except.ok.inj found]
    exact eq_ofChars_of_surrogateRun?_eq_none without

/-- Different characters have different code points. -/
theorem ofChars_injective {first second : List Char} (same : ofChars first = ofChars second) :
    first = second := by
  have equal := congrArg characters same
  rwa [characters_ofChars, characters_ofChars] at equal

end CodePoints

end EditableTemplate
