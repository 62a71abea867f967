import EditableTemplate.Text.Position
import Mathlib.Data.Char
import Mathlib.Data.Int.ConditionallyCompleteOrder
import Mathlib.Data.List.Induction
import Mathlib.Data.List.Nodup
import Mathlib.Data.Prod.Lex
import Mathlib.Order.ConditionallyCompleteLattice.Basic

/-!
# Positions and the lines of a text

The lines of a text are what its newlines separate. A position names a boundary between characters
by the line that it is on and by what stands before it there (`Position.Locates`), and a later
position names a later boundary (`Position.Locates.lt`), so each boundary has one position at most.
Counting the newlines before a boundary, and the characters since the last of them, finds it: every
character after the boundary belongs to the line that was begun, or to a later one
(`Position.exists_begun`). So the position of an offset is the one of the boundary that the offset
means (`Position.ofOffset_exact`).
-/

namespace EditableTemplate.Position

variable {text : List Char} {boundary later : Nat} {position next : Position}

/-- How many characters some lines have, each with the newline that ends it. -/
def extent : List (List Char) → Nat
  | [] => 0
  | line :: rest => line.length + 1 + extent rest

theorem extent_append (above below : List (List Char)) :
    extent (above ++ below) = extent above + extent below := by
  induction above with
  | nil => simp [extent]
  | cons line rest ih =>
      simp only [List.cons_append, extent, ih]
      omega

/-- The place of a position in the order of lines, and of columns in a line. -/
def inLex (position : Position) : Nat ×ₗ Nat :=
  toLex (position.line, position.column)

/-- A position on one of the lines of a text names the boundary before which there are the lines
above, each with its newline, and the characters of the line before the column. -/
def Locates (text : List Char) (boundary : Nat) (position : Position) : Prop :=
  ∃ above line below, text.splitOn '\n' = above ++ line :: below ∧
    position.line = above.length + 1 ∧
    1 ≤ position.column ∧ position.column ≤ line.length + 1 ∧
    boundary = extent above + (position.column - 1)

/-- A position is before another if its line is, or its column on the same line. -/
theorem inLex_lt_inLex :
    position.inLex < next.inLex ↔ position.line < next.line ∨
      position.line = next.line ∧ position.column < next.column :=
  Prod.Lex.toLex_lt_toLex

/-- Different positions have different places in the order. -/
theorem inLex_injective (same : position.inLex = next.inLex) : position = next := by
  obtain ⟨lines, columns⟩ := Prod.mk.inj (toLex.injective same)
  cases position
  cases next
  exact congr (congrArg Position.mk lines) columns

namespace Locates

/-- A later position names a later boundary: it is on a later line, or further along the line. -/
theorem lt (located : Locates text boundary position) (located' : Locates text later next)
    (before : position.inLex < next.inLex) : boundary < later := by
  obtain ⟨above, line, below, lines, number, _, within, rfl⟩ := located
  obtain ⟨above', line', below', lines', number', _, _, rfl⟩ := located'
  have same : above ++ line :: below = above' ++ line' :: below' := lines.symm.trans lines'
  rcases inLex_lt_inLex.mp before with higher | ⟨level, further⟩
  · rcases List.append_eq_append_iff.mp same with ⟨middle, rfl, rest⟩ | ⟨middle, rfl, _⟩
    · -- the line itself is among those above the later position
      cases middle with
      | nil =>
          rw [List.append_nil] at number'
          omega
      | cons first middle =>
          obtain ⟨rfl, _⟩ := List.cons_eq_cons.mp rest
          rw [extent_append, extent]
          omega
    · rw [List.length_append] at number
      omega
  · obtain ⟨rfl, _⟩ := List.append_inj same (by omega)
    omega

/-- A position names one boundary. -/
theorem boundary_eq (located : Locates text boundary position)
    (located' : Locates text later position) : boundary = later := by
  obtain ⟨above, line, below, lines, number, _, _, rfl⟩ := located
  obtain ⟨above', line', below', lines', number', _, _, rfl⟩ := located'
  obtain ⟨rfl, _⟩ := List.append_inj (lines.symm.trans lines') (by omega)
  rfl

/-- A boundary is named by one position. -/
theorem position_eq (located : Locates text boundary position)
    (located' : Locates text boundary next) : position = next := by
  rcases lt_trichotomy position.inLex next.inLex with before | same | after
  · exact absurd (located.lt located' before) (Nat.lt_irrefl boundary)
  · exact inLex_injective same
  · exact absurd (located'.lt located after) (Nat.lt_irrefl boundary)

/-- An earlier boundary is named by an earlier position. -/
theorem inLex_lt (located : Locates text boundary position) (located' : Locates text later next)
    (before : boundary < later) : position.inLex < next.inLex := by
  rcases lt_trichotomy position.inLex next.inLex with first | same | after
  · exact first
  · obtain rfl := inLex_injective same
    exact absurd (located.boundary_eq located') (Nat.ne_of_lt before)
  · exact absurd (located'.lt located after) (Nat.lt_asymm before)

end Locates

/-- A newline ends an empty line. -/
theorem splitOn_newline (rest : List Char) :
    ('\n' :: rest).splitOn '\n' = [] :: rest.splitOn '\n' := by
  simp [List.splitOn, List.splitOnP_cons_eq_if_modifyHead]

/-- A character other than a newline belongs to the first line. -/
theorem splitOn_of_ne {c : Char} (other : c ≠ '\n') {rest line : List Char}
    {below : List (List Char)} (lines : rest.splitOn '\n' = line :: below) :
    (c :: rest).splitOn '\n' = (c :: line) :: below := by
  unfold List.splitOn at lines ⊢
  simp [List.splitOnP_cons_eq_if_modifyHead, other, lines]

/-- A text that goes on has the lines that were ended in it, then the one that was begun, with the
first line of what follows, and then the other lines of that. The newlines number the lines that
were ended, and the characters after the last of them are those of the line that was begun. -/
theorem exists_begun (read : List Char) : ∃ above begun,
    above.length = read.count '\n' ∧
    begun.length = (read.reverse.takeWhile (· ≠ '\n')).length ∧
    read.length = extent above + begun.length ∧
    ∀ rest line below, rest.splitOn '\n' = line :: below →
      (read ++ rest).splitOn '\n' = above ++ (begun ++ line) :: below := by
  induction read using List.reverseRecOn with
  | nil => exact ⟨[], [], rfl, rfl, rfl, fun _ _ _ lines => lines⟩
  | append_singleton read c ih =>
      obtain ⟨above, begun, number, column, length, goesOn⟩ := ih
      by_cases ends : c = '\n'
      · subst ends
        refine ⟨above ++ [begun], [], by simp [number], by simp, ?_, ?_⟩
        · simp [extent_append, extent, length]
          omega
        · intro rest line below lines
          have onward := goesOn ('\n' :: rest) [] (line :: below) (by rw [splitOn_newline, lines])
          simpa using onward
      · refine ⟨above, begun ++ [c], by simp [number, ends], by simp [column, ends], ?_, ?_⟩
        · simp [length]
          omega
        · intro rest line below lines
          have onward := goesOn (c :: rest) (c :: line) below (splitOn_of_ne ends lines)
          simpa using onward

/-- Counting finds a position that names the boundary which an offset means. -/
theorem locates_ofOffset (text : List Char) (offset : Int) :
    Locates text (clamp text.length offset) (ofOffset text offset) := by
  obtain ⟨above, begun, number, column, length, goesOn⟩ :=
    exists_begun (text.take (clamp text.length offset))
  obtain ⟨line, below, lines⟩ := List.exists_cons_of_ne_nil
    (List.splitOn_ne_nil '\n' (text.drop (clamp text.length offset)))
  have whole := goesOn _ line below lines
  rw [List.take_append_drop] at whole
  have taken : (text.take (clamp text.length offset)).length = clamp text.length offset :=
    List.length_take_of_le (Nat.min_le_right _ _)
  refine ⟨above, begun ++ line, below, whole, ?_, ?_, ?_, ?_⟩
  · rw [number]
    rfl
  · exact Nat.le_add_left 1 _
  · rw [List.length_append, column]
    exact Nat.add_le_add_right (Nat.le_add_right _ _) 1
  · rw [← taken, length, column]
    rfl

/-- **Positions are exact.** An offset means the nearest boundary of the text, and its position is
the one that names this boundary. So from the start of the text to its end no two offsets have the
same position, and positions go up line by line and column by column. -/
theorem ofOffset_exact (text : List Char) :
    (∀ offset : Int, ∃ boundary : Nat, (boundary : Int) = max 0 (min offset text.length) ∧
      ∀ position, ofOffset text offset = position ↔ Locates text boundary position) ∧
    Set.InjOn (ofOffset text) (Set.Icc 0 text.length) ∧
    StrictMonoOn (fun offset => (ofOffset text offset).inLex) (Set.Icc 0 text.length) := by
  have located := locates_ofOffset text
  have increasing : StrictMonoOn (fun offset => (ofOffset text offset).inLex)
      (Set.Icc 0 (text.length : Int)) := by
    intro first inside second inside' before
    refine (located first).inLex_lt (located second) ?_
    obtain ⟨least, _⟩ := Set.mem_Icc.mp inside
    obtain ⟨_, most⟩ := Set.mem_Icc.mp inside'
    unfold clamp
    omega
  refine ⟨?_, ?_, increasing⟩
  · intro offset
    refine ⟨clamp text.length offset, ?_, fun position => ⟨?_, ?_⟩⟩
    · unfold clamp
      omega
    · rintro rfl
      exact located offset
    · exact (located offset).position_eq
  · intro first inside second inside' same
    exact increasing.injOn inside inside' (congrArg inLex same)

example : ofOffset "a\n\nb".toList 2 = ⟨2, 1⟩ := by decide

end EditableTemplate.Position
