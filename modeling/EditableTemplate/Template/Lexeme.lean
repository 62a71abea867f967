import EditableTemplate.Number.Literal
import EditableTemplate.Template.Failure
import EditableTemplate.Text.Blank

/-!
# Lexemes of a placeholder

The content of a placeholder is a row of lexemes with blank characters between and around them:
quoted texts, number literals, truth values, names and five marks. `Lexeme.read` takes the one at
the start of a text, as long as possible, together with the slice that it occupies; the slice and
what follows it make up the text (`Lexeme.read_covers`).
-/

namespace EditableTemplate

/-- The marks of placeholder expressions. -/
inductive Mark
  /-- Starts a declaration. -/
  | atSign
  /-- Starts a reference. -/
  | dollar
  /-- Stands before a kind or the content of a metadata key. -/
  | colon
  /-- Stands before the default of a declaration. -/
  | equals
  /-- Stands before a metadata key. -/
  | comma
  deriving DecidableEq, Repr

namespace Mark

/-- All marks. -/
def all : List Mark := [.atSign, .dollar, .colon, .equals, .comma]

/-- The character of a mark. -/
def char : Mark → Char
  | .atSign => '@'
  | .dollar => '$'
  | .colon => ':'
  | .equals => '='
  | .comma => ','

/-- The mark that a character is. -/
def ofChar? (c : Char) : Option Mark :=
  all.find? (·.char = c)

end Mark

/-- The quote around texts. -/
def quoteMark : Char := Char.ofNat 0x22

/-- What a character means after a backslash: a newline, a tab, or itself. -/
def unescapeChar : Char → Char
  | 'n' => '\n'
  | 't' => '\t'
  | c => c

/-- The text that the inside of a quoted text stands for. A backslash at the end of all is kept. -/
def unescape : List Char → List Char
  | [] => []
  | ['\\'] => ['\\']
  | '\\' :: c :: rest => unescapeChar c :: unescape rest
  | c :: rest => c :: unescape rest

/-- The inside of a quoted text and what follows it, from just after the opening quote. A character
after a backslash is never the closing quote. -/
def splitQuoted? : List Char → Option (List Char × List Char)
  | [] => none
  | ['\\'] => none
  | '\\' :: c :: rest => (splitQuoted? rest).map fun (body, after) => ('\\' :: c :: body, after)
  | c :: rest =>
    if c = quoteMark then some ([], rest)
    else (splitQuoted? rest).map fun (body, after) => (c :: body, after)

/-- A quoted text is its inside, the closing quote, and what follows. -/
theorem eq_of_splitQuoted? {text body after : List Char}
    (split : splitQuoted? text = some (body, after)) : text = body ++ quoteMark :: after := by
  fun_induction splitQuoted? text generalizing body with
  | case1 => simp at split
  | case2 => simp at split
  | case3 c rest ih =>
    obtain ⟨⟨inner, _⟩, found, parts⟩ := Option.map_eq_some_iff.1 split
    obtain ⟨rfl, rfl⟩ := Prod.mk.inj parts
    simp [ih found]
  | case4 rest =>
    obtain ⟨rfl, rfl⟩ : [] = body ∧ rest = after := by simpa using split
    simp
  | case5 c rest _ _ ordinary ih =>
    obtain ⟨⟨inner, _⟩, found, parts⟩ := Option.map_eq_some_iff.1 split
    obtain ⟨rfl, rfl⟩ := Prod.mk.inj parts
    simp [ih found]

/-- Whether a name may start with a character. -/
def isNameStart (c : Char) : Bool :=
  c.isAlpha || c = '_'

/-- Whether a name may go on with a character. -/
def isNameChar (c : Char) : Bool :=
  c.isAlphanum || c = '_' || c = '-'

/-- One unit of a placeholder expression. -/
inductive Lexeme
  /-- A quoted text, by what it stands for. -/
  | string (text : String)
  /-- A number literal. -/
  | number (literal : NumberLiteral)
  /-- A truth value. -/
  | boolean (value : Bool)
  /-- A name or a key word. -/
  | name (word : String)
  /-- A mark. -/
  | mark (mark : Mark)
  deriving DecidableEq, Repr

namespace Lexeme

/-- The text of a lexeme: what a quoted text stands for, and otherwise the slice itself. -/
def text : Lexeme → String
  | .string text => text
  | .number literal => String.ofList literal.text
  | .boolean true => "true"
  | .boolean false => "false"
  | .name word => word
  | .mark sign => String.singleton sign.char

/-- The lexeme of a word: a truth value or a name. -/
def ofWord (word : List Char) : Lexeme :=
  match String.ofList word with
  | "true" => .boolean true
  | "false" => .boolean false
  | other => .name other

/-- A lexeme at the start of a text. -/
structure Reading where
  /-- The lexeme. -/
  lexeme : Lexeme
  /-- The slice that it occupies. -/
  slice : List Char
  /-- What follows the slice. -/
  rest : List Char

/-- The quoted text after an opening quote. -/
def readQuoted (text : List Char) : Except SyntaxFault Reading :=
  match splitQuoted? text with
  | some (body, after) =>
    .ok ⟨.string (String.ofList (unescape body)), quoteMark :: body ++ [quoteMark], after⟩
  | none => .error .unterminatedString

/-- The mark or the name that starts with a character. -/
def readWord (c : Char) (rest : List Char) : Except SyntaxFault Reading :=
  match Mark.ofChar? c with
  | some sign => .ok ⟨.mark sign, [c], rest⟩
  | none =>
    if isNameStart c then
      let word := c :: rest.takeWhile isNameChar
      .ok ⟨ofWord word, word, rest.dropWhile isNameChar⟩
    else .error (.unexpectedCharacter c)

/-- The lexeme at the start of a text whose first character is not blank. -/
def read (c : Char) (rest : List Char) : Except SyntaxFault Reading :=
  if c = quoteMark then readQuoted rest
  else match NumberLiteral.split? (c :: rest) with
    | some (literal, after) => .ok ⟨.number literal, literal.text, after⟩
    | none => readWord c rest

/-- A reading cuts the text in two, and its slice is not empty. -/
structure Reading.Covers (reading : Reading) (text : List Char) : Prop where
  /-- The slice and what follows it make up the text. -/
  whole : text = reading.slice ++ reading.rest
  /-- Something was read. -/
  nonempty : reading.slice ≠ []

/-- Reading a quoted text cuts the text in two. -/
theorem readQuoted_covers {text : List Char} {reading : Reading}
    (read : readQuoted text = .ok reading) : reading.Covers (quoteMark :: text) := by
  unfold readQuoted at read
  split at read
  · rename_i body after split
    obtain rfl := Except.ok.inj read
    exact ⟨by simp [eq_of_splitQuoted? split], by simp⟩
  · cases read

/-- Reading a mark or a name cuts the text in two. -/
theorem readWord_covers {c : Char} {rest : List Char} {reading : Reading}
    (read : readWord c rest = .ok reading) : reading.Covers (c :: rest) := by
  unfold readWord at read
  split at read
  · obtain rfl := Except.ok.inj read
    exact ⟨rfl, by simp⟩
  · split at read
    · obtain rfl := Except.ok.inj read
      exact ⟨by simp [List.takeWhile_append_dropWhile], by simp⟩
    · cases read

/-- Reading a lexeme cuts the text in two. -/
theorem read_covers {c : Char} {rest : List Char} {reading : Reading}
    (found : read c rest = .ok reading) : reading.Covers (c :: rest) := by
  unfold read at found
  split at found
  · rename_i quote
    rw [quote]
    exact readQuoted_covers found
  · split at found
    · rename_i literal after split
      obtain rfl := Except.ok.inj found
      exact ⟨NumberLiteral.eq_of_split? split, by
        simp [NumberLiteral.text, NumberLiteral.whole_ne_nil_of_split? split]⟩
    · exact readWord_covers found

/-- What follows a lexeme is shorter than the text. -/
theorem length_rest_lt_of_read {c : Char} {rest : List Char} {reading : Reading}
    (found : read c rest = .ok reading) : reading.rest.length < (c :: rest).length := by
  have covers := read_covers found
  have := List.length_pos_iff.2 covers.nonempty
  rw [covers.whole, List.length_append]
  omega

end Lexeme

end EditableTemplate
