import EditableTemplate.Text.CodePoint

/-!
# Control sequences of a terminal

A text can hold sequences that move the cursor of a terminal or change its colors: the escape
character and an opening bracket, parameters, intermediate characters, and one final character.
Where a text is written to something other than a terminal, they are left out
(`ControlSequence.remove`). A sequence that breaks off is ordinary text.
-/

namespace EditableTemplate.ControlSequence

/-- The character that starts a sequence. -/
def escape : Char := Char.ofNat 0x1B

/-- Whether a code point is a parameter of a sequence: a digit, a separator or a private mark. -/
def isParameter : CodePoint → Bool
  | .character c => '0' ≤ c && c ≤ '?'
  | .surrogate _ => false

/-- Whether a code point is an intermediate character of a sequence: a blank or punctuation. -/
def isIntermediate : CodePoint → Bool
  | .character c => ' ' ≤ c && c ≤ '/'
  | .surrogate _ => false

/-- Whether a code point ends a sequence: a letter, or punctuation beside the letters. -/
def isFinal : CodePoint → Bool
  | .character c => '@' ≤ c && c ≤ '~'
  | .surrogate _ => false

/-- What follows the rest of a sequence, from just after its opening bracket. -/
def dropRest? (text : CodePoints) : Option CodePoints :=
  match (text.dropWhile isParameter).dropWhile isIntermediate with
  | [] => none
  | final :: after => if isFinal final then some after else none

/-- What follows the sequence with which a text starts. -/
def drop? : CodePoints → Option CodePoints
  | .character first :: .character second :: rest =>
    if first = escape ∧ second = '[' then dropRest? rest else none
  | _ => none

/-- What follows the rest of a sequence is shorter. -/
theorem length_lt_of_dropRest? {text after : CodePoints} (found : dropRest? text = some after) :
    after.length < text.length := by
  have bound : ((text.dropWhile isParameter).dropWhile isIntermediate).length ≤ text.length :=
    Nat.le_trans (List.dropWhile_suffix _).length_le (List.dropWhile_suffix _).length_le
  rw [dropRest?] at found
  split at found
  · cases found
  · rename_i final rest left
    split at found
    · rw [left, List.length_cons] at bound
      rw [← Option.some.inj found]
      omega
    · cases found

/-- What follows a sequence is shorter. -/
theorem length_lt_of_drop? {text after : CodePoints} (found : drop? text = some after) :
    after.length < text.length := by
  rw [drop?.eq_def] at found
  split at found
  · split at found
    · have shorter := length_lt_of_dropRest? found
      simp only [List.length_cons]
      omega
    · cases found
  · cases found

/-- The text without the sequences in it. -/
def remove (text : CodePoints) : CodePoints :=
  match _found : drop? text with
  | some after => remove after
  | none =>
    match text with
    | [] => []
    | point :: rest => point :: remove rest
termination_by text.length
decreasing_by
  · exact length_lt_of_drop? _found
  · simp

/-- A text without the escape character holds no sequence. -/
theorem remove_eq_self {text : CodePoints} (absent : .character escape ∉ text) :
    remove text = text := by
  induction text with
  | nil => simp [remove, drop?]
  | cons point rest ih =>
    have ordinary : drop? (point :: rest) = none := by
      rw [drop?.eq_def]
      split
      · rename_i first second after same
        have other : first ≠ escape := fun equal =>
          absent (by rw [same, equal]; exact List.mem_cons_self)
        simp [other]
      · rfl
    rw [remove.eq_def]
    split
    · rename_i after found
      rw [ordinary] at found
      cases found
    · exact congrArg (point :: ·) (ih fun member => absent (List.mem_cons_of_mem point member))

end EditableTemplate.ControlSequence
