/-!
# Similar words

Two words are similar if they share enough characters in the same order. What they share is found
by blocks: the longest common block is matched first, then what lies before it and what lies after
it are matched in the same way (`Text.matched`). A word is similar to another if the matched
characters make up three fifths of both (`Text.isSimilar`).
-/

namespace EditableTemplate.Text

/-- A common block of two words: where it starts in each, and its length. -/
structure Block where
  /-- The start in the first word. -/
  first : Nat
  /-- The start in the second word. -/
  second : Nat
  /-- The count of characters. -/
  length : Nat
  deriving DecidableEq, Repr

/-- The count of characters with which two words both start. -/
def commonLength : List Char → List Char → Nat
  | a :: first, b :: second => if a = b then commonLength first second + 1 else 0
  | _, _ => 0

/-- The longer of two blocks, and the earlier one of equal length. -/
def Block.longer (earlier later : Block) : Block :=
  if earlier.length < later.length then later else earlier

/-- The longest block at the start of the first word, and the first of these in the second. -/
def longestAt (start : Nat) (first : List Char) (offset : Nat) : List Char → Block
  | [] => ⟨start, offset, 0⟩
  | b :: second =>
    Block.longer ⟨start, offset, commonLength first (b :: second)⟩
      (longestAt start first (offset + 1) second)

/-- The longest common block, the first of these in the first word and then in the second. -/
def longestBlock (start : Nat) (second : List Char) : List Char → Block
  | [] => ⟨start, 0, 0⟩
  | a :: first =>
    Block.longer (longestAt start (a :: first) 0 second) (longestBlock (start + 1) second first)

/-- The count of characters that two words share. -/
def matched (first second : List Char) : Nat :=
  match longestBlock 0 second first with
  | ⟨start, offset, length⟩ =>
    if _within : 0 < length ∧ start + length ≤ first.length then
      matched (first.take start) (second.take offset) + length +
        matched (first.drop (start + length)) (second.drop (offset + length))
    else 0
termination_by first.length
decreasing_by
  all_goals
    simp only [List.length_take, List.length_drop]
    omega

/-- Whether a word is similar to a known one. -/
def isSimilar (word known : String) : Bool :=
  3 * (word.length + known.length) ≤ 10 * matched known.toList word.toList

end EditableTemplate.Text
