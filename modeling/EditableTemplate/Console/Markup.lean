/-!
# Console markup

Text for the console is styled by tags in square brackets. A backslash before a tag makes it
literal, and backslashes before a tag are paired. `Markup.escape` writes a text so that nothing in
it is taken for a tag, and `Markup.plain` is what the console shows of a marked-up text. Both cut a
text into its characters and its tags (`Markup.pieces`).
-/

namespace EditableTemplate.Markup

/-- Whether a character may follow the opening bracket of a tag. -/
def startsTag (c : Char) : Bool :=
  ('a' ≤ c && c ≤ 'z') || c = '#' || c = '/' || c = '@'

/-- What stands before the first closing bracket, and what follows it; no opening bracket may come
before it. -/
def closeTag? : List Char → Option (List Char × List Char)
  | [] => none
  | c :: rest =>
    if c = ']' then some ([], rest)
    else if c = '[' then none
    else (closeTag? rest).map fun (inner, after) => (c :: inner, after)

/-- The tag with which a text starts, without its brackets, and what follows it. -/
def tag? : List Char → Option (List Char × List Char)
  | '[' :: c :: rest =>
    if startsTag c then (closeTag? rest).map fun (inner, after) => (c :: inner, after) else none
  | _ => none

/-- The text up to a closing bracket is what was found and the bracket. -/
theorem eq_of_closeTag? {text inner after : List Char}
    (closed : closeTag? text = some (inner, after)) : text = inner ++ ']' :: after := by
  induction text generalizing inner with
  | nil => simp [closeTag?] at closed
  | cons c rest ih =>
    rw [closeTag?] at closed
    split at closed
    · rename_i bracket
      obtain ⟨rfl, rfl⟩ : [] = inner ∧ rest = after := by simpa using closed
      simp [bracket]
    · split at closed
      · simp at closed
      · obtain ⟨⟨tail, after'⟩, found, parts⟩ := Option.map_eq_some_iff.1 closed
        obtain ⟨rfl, rfl⟩ : c :: tail = inner ∧ after' = after := by simpa using parts
        rw [ih found]
        rfl

/-- A text that starts with a tag is the tag in its brackets and what follows it. -/
theorem eq_of_tag? {text name after : List Char} (found : tag? text = some (name, after)) :
    text = '[' :: name ++ ']' :: after := by
  match text with
  | [] => simp [tag?] at found
  | [_] => simp [tag?] at found
  | opening :: c :: rest =>
    by_cases bracket : opening = '['
    · subst bracket
      rw [tag?] at found
      split at found
      · obtain ⟨⟨inner, after'⟩, closed, parts⟩ := Option.map_eq_some_iff.1 found
        obtain ⟨rfl, rfl⟩ : c :: inner = name ∧ after' = after := by simpa using parts
        rw [eq_of_closeTag? closed]
        rfl
      · simp at found
    · simp [tag?, bracket] at found

/-- A part of a text. -/
inductive Piece
  /-- A character outside tags. -/
  | character (c : Char)
  /-- A tag, without its brackets, and the count of backslashes before it. -/
  | tag (backslashes : Nat) (name : List Char)
  deriving DecidableEq, Repr

/-- The leading backslashes of a text. -/
def leadingBackslashes (text : List Char) : List Char :=
  text.takeWhile (· = '\\')

/-- What follows the leading backslashes of a text. -/
def afterBackslashes (text : List Char) : List Char :=
  text.dropWhile (· = '\\')

/-- What follows the leading backslashes is not longer than the text. -/
theorem length_afterBackslashes_le (text : List Char) :
    (afterBackslashes text).length ≤ text.length :=
  (List.dropWhile_suffix _).length_le

/-- The characters and the tags of a text. -/
def pieces (text : List Char) : List Piece :=
  match _found : tag? (afterBackslashes text) with
  | some (name, after) => .tag (leadingBackslashes text).length name :: pieces after
  | none =>
    match text with
    | [] => []
    | c :: rest => .character c :: pieces rest
termination_by text.length
decreasing_by
  · have bound := length_afterBackslashes_le text
    rw [eq_of_tag? _found] at bound
    simp only [List.length_append, List.length_cons] at bound
    omega
  · simp

/-- Some backslashes. -/
def backslashes (count : Nat) : List Char :=
  List.replicate count '\\'

/-- A tag in its brackets. -/
def bracketed (name : List Char) : List Char :=
  '[' :: name ++ [']']

/-- A piece with its tag made literal: the backslashes are doubled, and one more is added. -/
def Piece.escaped : Piece → List Char
  | .character c => [c]
  | .tag count name => backslashes (2 * count + 1) ++ bracketed name

/-- Whether a text ends in exactly one backslash. -/
def endsInBackslash (text : List Char) : Bool :=
  (leadingBackslashes text.reverse).length = 1

/-- A text in which nothing is taken for a tag. A single backslash at its end is doubled, so that
it does not act on a tag that follows. -/
def escape (text : String) : String :=
  let escaped := (pieces text.toList).flatMap Piece.escaped
  String.ofList (if endsInBackslash escaped then escaped ++ ['\\'] else escaped)

/-- What is shown of pieces: a backslash before an opening bracket is dropped, of the backslashes
before a tag half are shown, and a tag itself is shown only after an odd count of them. -/
def plainPieces : List Piece → List Char
  | [] => []
  | .character '\\' :: .character '[' :: rest => '[' :: plainPieces rest
  | .character c :: rest => c :: plainPieces rest
  | .tag count name :: rest =>
    backslashes (count / 2) ++ (if count % 2 = 1 then bracketed name else []) ++ plainPieces rest

/-- Whether the console leaves a character out: the bell, the backspace, the vertical tab, the form
feed and the carriage return. -/
def isControl (c : Char) : Bool :=
  [0x07, 0x08, 0x0B, 0x0C, 0x0D].contains c.toNat

/-- What the console shows of a marked-up text. -/
def plain (markup : String) : String :=
  String.ofList ((plainPieces (pieces markup.toList)).filter fun c => !isControl c)

/-- A marked-up text in a style. -/
def styled (style markup : String) : String :=
  s!"[{style}]{markup}[/{style}]"

end EditableTemplate.Markup
