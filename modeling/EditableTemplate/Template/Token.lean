import EditableTemplate.Template.Lexeme

/-!
# Tokens of a placeholder

A token is a lexeme with its position. `TokenRow.tokenize` reads all tokens of a text, passing over
blank characters, and keeps the position at which the text ends.
-/

namespace EditableTemplate

/-- A lexeme with the position of its first character. -/
structure Token where
  /-- The lexeme. -/
  lexeme : Lexeme
  /-- The position, counted from wherever the text was said to start. -/
  position : Int
  deriving DecidableEq, Repr

/-- The tokens of a text, and the position at which it ends. -/
structure TokenRow where
  /-- The tokens, in order. -/
  tokens : List Token
  /-- The position just past the text. -/
  stop : Int
  deriving DecidableEq, Repr

namespace TokenRow

/-- The tokens of a text that starts at a position. Blank characters are passed over. -/
def readFrom (position : Int) (text : List Char) : Except Failure TokenRow :=
  match text with
  | [] => .ok ⟨[], position⟩
  | c :: rest =>
    if Text.isBlank c then readFrom (position + 1) rest
    else match _found : Lexeme.read c rest with
      | .error fault => .error (.malformed fault position)
      | .ok reading => do
        let row ← readFrom (position + reading.slice.length) reading.rest
        pure { row with tokens := ⟨reading.lexeme, position⟩ :: row.tokens }
termination_by text.length
decreasing_by
  · simp
  · exact Lexeme.length_rest_lt_of_read _found

/-- The tokens of a text, whose first character has the given position. -/
def tokenize (text : String) (position : Int) : Except Failure TokenRow :=
  readFrom position text.toList

/-- The lexemes of the tokens. -/
def lexemes (row : TokenRow) : List Lexeme :=
  row.tokens.map Token.lexeme

/-- The position of the token that so many tokens from the end start with; the end for none. -/
def positionFromEnd (row : TokenRow) (remaining : Nat) : Int :=
  match row.tokens[row.tokens.length - remaining]? with
  | some token => token.position
  | none => row.stop

end TokenRow

end EditableTemplate
