import EditableTemplate.Proofs.Template.Segmentation

/-!
# Backslashes in quoted texts come in pairs

The inside of a quoted text is a row of pieces: ordinary characters, and pairs of a backslash and
any character (`QuotedPiece`). Where one piece stands no other does, so a row is found from left to
right in one way (`QuotedPiece.exists_rest_of_append`), and every backslash belongs to a pair of it
(`QuotedPiece.inPair_of_backslash`). Looking for the closing quote and removing the backslashes both
go by this row (`QuotedPiece.read_written`, `QuotedPiece.unescape_written`). So a quoted text stands
for one character for each piece, and any text can be quoted with backslashes before its quotes and
backslashes only (`TokenRow.backslashes_pair`).
-/

namespace EditableTemplate

/-- A piece of the inside of a quoted text. -/
inductive QuotedPiece
  /-- A character that is neither a backslash nor a quote. -/
  | ordinary (c : Char) (plain : c ≠ '\\') (inside : c ≠ quoteMark)
  /-- A backslash and the character after it. -/
  | pair (c : Char)
  deriving DecidableEq

namespace QuotedPiece

/-- The piece as it stands in the text. -/
def written : QuotedPiece → List Char
  | .ordinary c _ _ => [c]
  | .pair c => ['\\', c]

/-- The characters that are decoded after a backslash. Any other stands for itself. -/
def decodings : List (Char × Char) :=
  [('n', '\n'), ('t', '\t'), (quoteMark, quoteMark), ('\\', '\\')]

/-- The character that the piece stands for. -/
def meaning : QuotedPiece → Char
  | .ordinary c _ _ => c
  | .pair c => (decodings.lookup c).getD c

/-- Whether the piece has a backslash. -/
def isPair : QuotedPiece → Bool
  | .ordinary .. => false
  | .pair _ => true

/-- The piece by which a character is quoted. -/
def ofChar (c : Char) : QuotedPiece :=
  if special : c = quoteMark ∨ c = '\\' then .pair c
  else .ordinary c (fun backslash => special (.inr backslash)) (fun quote => special (.inl quote))

/-- The character that comes after a text belongs to a pair of the row: it starts one, or it is the
second backslash of one. -/
def InPair (pieces : List QuotedPiece) (before : List Char) : Prop :=
  ∃ front c back, pieces = front ++ .pair c :: back ∧
    (before = front.flatMap written ∨ c = '\\' ∧ before = front.flatMap written ++ ['\\'])

/-- A text is split into these pieces and no others, which one finds from left to right. -/
structure Splits (body : List Char) (pieces : List QuotedPiece) : Prop where
  /-- The pieces make up the text. -/
  whole : pieces.flatMap written = body
  /-- No other pieces do. -/
  sole : ∀ other, other.flatMap written = body → other = pieces
  /-- Pieces that are cut off from the left are the first of the row. -/
  leftmost : ∀ front rest, body = front.flatMap written ++ rest →
    ∃ back, pieces = front ++ back ∧ rest = back.flatMap written
  /-- No backslash is left without a pair. -/
  paired : ∀ before after, body = before ++ '\\' :: after → InPair pieces before

/-- What a character stands for after a backslash is in the table, or is itself. -/
theorem unescapeChar_eq (c : Char) : unescapeChar c = (decodings.lookup c).getD c := by
  unfold unescapeChar
  split
  · rfl
  · rfl
  · rename_i newline tab
    cases found : decodings.lookup c with
    | none => rfl
    | some d =>
        obtain ⟨before, after, listed, _⟩ := List.lookup_eq_some_iff.mp found
        have member : (c, d) ∈ decodings := by simp [listed]
        rcases List.mem_cons.mp member with first | member
        · exact (newline (Prod.mk.inj first).1).elim
        rcases List.mem_cons.mp member with second | member
        · exact (tab (Prod.mk.inj second).1).elim
        -- a quote and a backslash are decoded to themselves
        simp only [List.mem_cons, Prod.mk.injEq, List.not_mem_nil, or_false] at member
        rcases member with ⟨rfl, rfl⟩ | ⟨rfl, rfl⟩ <;> rfl

/-! ## The pieces of a text -/

/-- Where one piece stands no other does. -/
theorem written_append_inj {first second : QuotedPiece} {rest other : List Char}
    (same : first.written ++ rest = second.written ++ other) : first = second ∧ rest = other := by
  cases first with
  | ordinary c plain inside =>
      cases second with
      | ordinary d _ _ =>
          obtain ⟨rfl, rfl⟩ := List.cons.inj same
          exact ⟨rfl, rfl⟩
      | pair d => exact (plain (List.cons.inj same).1).elim
  | pair c =>
      cases second with
      | ordinary d plain _ => exact (plain (List.cons.inj same).1.symm).elim
      | pair d =>
          obtain ⟨rfl, rfl⟩ := List.cons.inj (List.cons.inj same).2
          exact ⟨rfl, rfl⟩

/-- Pieces that are cut off from the left are the first of the row. -/
theorem exists_rest_of_append {front pieces : List QuotedPiece} {rest : List Char}
    (same : pieces.flatMap written = front.flatMap written ++ rest) :
    ∃ back, pieces = front ++ back ∧ rest = back.flatMap written := by
  induction front generalizing pieces with
  | nil => exact ⟨pieces, rfl, same.symm⟩
  | cons piece front ih =>
      rw [List.flatMap_cons, List.append_assoc] at same
      cases pieces with
      | nil => cases piece <;> cases same
      | cons other pieces =>
          rw [List.flatMap_cons] at same
          obtain ⟨rfl, onward⟩ := written_append_inj same
          obtain ⟨back, rfl, rest⟩ := ih onward
          exact ⟨back, rfl, rest⟩

/-- A text is made up of one row of pieces at most. -/
theorem flatMap_written_injective {first second : List QuotedPiece}
    (same : first.flatMap written = second.flatMap written) : first = second := by
  obtain ⟨back, rfl, nothing⟩ :=
    exists_rest_of_append (same.trans (List.append_nil _).symm)
  cases back with
  | nil => exact List.append_nil second
  | cons piece back => cases piece <;> cases nothing

/-- A character that belongs to a pair does so behind one more piece. -/
theorem InPair.cons {pieces : List QuotedPiece} {before : List Char} (piece : QuotedPiece)
    (within : InPair pieces before) : InPair (piece :: pieces) (piece.written ++ before) := by
  obtain ⟨front, c, back, rfl, place⟩ := within
  refine ⟨piece :: front, c, back, rfl, ?_⟩
  rw [List.flatMap_cons, List.append_assoc]
  exact place.imp (congrArg _) (And.imp_right (congrArg _))

/-- Every backslash of a row of pieces belongs to a pair. -/
theorem inPair_of_backslash {pieces : List QuotedPiece} {before after : List Char}
    (whole : pieces.flatMap written = before ++ '\\' :: after) : InPair pieces before := by
  induction pieces generalizing before with
  | nil => cases before <;> cases whole
  | cons piece pieces ih =>
      cases piece with
      | ordinary c plain inside =>
          cases before with
          | nil => exact (plain (List.cons.inj whole).1).elim
          | cons d before =>
              obtain ⟨rfl, onward⟩ := List.cons.inj whole
              exact (ih onward).cons (.ordinary c plain inside)
      | pair c =>
          -- the backslash starts this pair, ends it, or comes after it
          cases before with
          | nil => exact ⟨[], c, pieces, rfl, .inl rfl⟩
          | cons d before =>
              obtain ⟨rfl, second⟩ := List.cons.inj whole
              cases before with
              | nil => exact ⟨[], c, pieces, rfl, .inr ⟨(List.cons.inj second).1, rfl⟩⟩
              | cons e before =>
                  obtain ⟨rfl, onward⟩ := List.cons.inj second
                  exact (ih onward).cons (.pair c)

/-- Pieces take one character each, and one more for each pair. -/
theorem length_flatMap_written (pieces : List QuotedPiece) :
    (pieces.flatMap written).length = pieces.length + pieces.countP isPair := by
  induction pieces with
  | nil => rfl
  | cons piece pieces ih =>
      rw [List.flatMap_cons, List.length_append, ih, List.length_cons, List.countP_cons]
      cases piece <;> simp [written, isPair] <;> omega

/-! ## Looking for the closing quote and removing the backslashes -/

/-- What pieces are written as is the inside of a quoted text. -/
theorem quotedBody_written (pieces : List QuotedPiece) : QuotedBody (pieces.flatMap written) := by
  induction pieces with
  | nil => exact .nil
  | cons piece pieces ih =>
      cases piece with
      | ordinary c plain inside => exact .ordinary plain inside ih
      | pair c => exact .escaped c ih

/-- Without backslashes pieces are what they mean. -/
theorem unescape_written (pieces : List QuotedPiece) :
    unescape (pieces.flatMap written) = pieces.map meaning := by
  induction pieces with
  | nil => rfl
  | cons piece pieces ih =>
      rw [List.flatMap_cons, List.map_cons, ← ih]
      cases piece with
      | ordinary c plain inside => exact unescape_cons plain _
      | pair c =>
          rw [written, List.cons_append, List.singleton_append, unescape, unescapeChar_eq]
          rfl

theorem splits_written (pieces : List QuotedPiece) : Splits (pieces.flatMap written) pieces where
  whole := rfl
  sole _ same := flatMap_written_injective same
  leftmost _ _ same := exists_rest_of_append same
  paired _ _ whole := inPair_of_backslash whole

/-- The inside of a quoted text is made of pieces. -/
theorem exists_flatMap_written {body : List Char} (quoted : QuotedBody body) :
    ∃ pieces : List QuotedPiece, pieces.flatMap written = body := by
  induction quoted with
  | nil => exact ⟨[], rfl⟩
  | ordinary plain inside _ ih =>
      obtain ⟨pieces, rfl⟩ := ih
      exact ⟨.ordinary _ plain inside :: pieces, rfl⟩
  | escaped c _ ih =>
      obtain ⟨pieces, rfl⟩ := ih
      exact ⟨.pair c :: pieces, rfl⟩

/-- The inside of a quoted text can be split. -/
theorem exists_splits {body : List Char} (quoted : QuotedBody body) :
    ∃ pieces, Splits body pieces := by
  obtain ⟨pieces, rfl⟩ := exists_flatMap_written quoted
  exact ⟨pieces, splits_written pieces⟩

/-- Pieces between quotes are read as what they stand for, whatever follows. -/
theorem read_written (pieces : List QuotedPiece) (rest : List Char) :
    Lexeme.read quoteMark (pieces.flatMap written ++ quoteMark :: rest) =
      .ok ⟨.string (String.ofList (pieces.map meaning)),
        quoteMark :: pieces.flatMap written ++ [quoteMark], rest⟩ := by
  have split : splitQuoted? (pieces.flatMap written ++ quoteMark :: rest) =
      some (pieces.flatMap written, rest) :=
    splitQuoted?_eq_some_iff.mpr ⟨rfl, quotedBody_written pieces⟩
  rw [Lexeme.read, if_pos rfl, Lexeme.readQuoted, split]
  simp only [unescape_written]

theorem meaning_ofChar (c : Char) : (ofChar c).meaning = c := by
  unfold ofChar
  split
  · rename_i special
    rcases special with rfl | rfl <;> rfl
  · rfl

/-- Quotes and backslashes are quoted with a backslash, other characters as they are. -/
theorem written_ofChar (c : Char) :
    (ofChar c).written = if c = quoteMark ∨ c = '\\' then ['\\', c] else [c] := by
  unfold ofChar
  split
  · rfl
  · rfl

end QuotedPiece

/-- A text with a backslash before each quote and each backslash. -/
def backslashed (text : List Char) : List Char :=
  text.flatMap fun c => if c = quoteMark ∨ c = '\\' then ['\\', c] else [c]

/-- A backslashed text is the pieces by which its characters are quoted. -/
theorem backslashed_eq (text : List Char) :
    backslashed text = (text.map QuotedPiece.ofChar).flatMap QuotedPiece.written := by
  rw [backslashed, List.flatMap_map]
  simp only [QuotedPiece.written_ofChar]

namespace TokenRow

open QuotedPiece

/-- Pieces between quotes are one token. -/
theorem tokenize_written (pieces : List QuotedPiece) (position : Int) :
    tokenize (String.ofList (quoteMark :: pieces.flatMap written ++ [quoteMark])) position =
      .ok ⟨[⟨.string (String.ofList (pieces.map meaning)), position⟩],
        position + ((pieces.flatMap written).length + 2)⟩ := by
  have taken := Lexeme.takenFrom_of_read (read_written pieces [])
  rw [List.cons_append, tokenize_of_takenFrom taken, List.length_cons, List.length_append]
  rfl

/-- **Backslashes pair.** What stands between the quotes of a token splits into pieces in one way,
and the token stands for what the pieces stand for: for a text that is shorter by the number of
pairs. With a backslash before each quote and each backslash, every text is quoted as one token. -/
theorem backslashes_pair :
    (∀ {text : String} {position : Int} {row : TokenRow} {token : Token} {value : String},
      tokenize text position = .ok row → token ∈ row.tokens → token.lexeme = .string value →
      ∃ before body after pieces,
        text.toList = before ++ (quoteMark :: body ++ quoteMark :: after) ∧
        token.position = position + before.length ∧
        Lexeme.read quoteMark (body ++ quoteMark :: after) =
          .ok ⟨.string value, quoteMark :: body ++ [quoteMark], after⟩ ∧
        Splits body pieces ∧
        value = String.ofList (unescape body) ∧ unescape body = pieces.map meaning ∧
        value.length + pieces.countP isPair = body.length) ∧
    ∀ (text : String) (position : Int),
      tokenize (String.ofList (quoteMark :: backslashed text.toList ++ [quoteMark])) position =
        .ok ⟨[⟨.string text, position⟩], position + ((backslashed text.toList).length + 2)⟩ := by
  constructor
  · intro text position row token value tokenized member quoted
    obtain ⟨before, slice, after, whole, place, taken⟩ := exists_place_of_tokenize tokenized member
    rw [quoted] at taken
    obtain ⟨body, rfl, closes, rfl⟩ := taken.shows
    obtain ⟨pieces, splits⟩ := QuotedPiece.exists_splits (quotedBody_iff.mpr closes)
    have around : quoteMark :: body ++ [quoteMark] ++ after =
        quoteMark :: (body ++ quoteMark :: after) := by simp
    rw [around] at whole taken
    have unescaped : unescape body = pieces.map meaning := by
      rw [← splits.whole, unescape_written]
    refine ⟨before, body, after, pieces, whole, place,
      Lexeme.read_eq_ok_iff.mpr ⟨around.symm, taken⟩, splits, rfl, unescaped, ?_⟩
    rw [unescaped, String.length_ofList, List.length_map, ← splits.whole, length_flatMap_written]
  · intro text position
    have meant : (text.toList.map ofChar).map meaning = text.toList :=
      List.map_map.trans (List.map_id'' meaning_ofChar _)
    have tokenized := tokenize_written (text.toList.map ofChar) position
    rwa [meant, String.ofList_toList, ← backslashed_eq] at tokenized

/-- The inside of a quoted text, with a run of three backslashes before a quote, a run of two at the
end, and pairs with a newline and a brace. -/
def runsBody : List Char := "\\\\\\\"n\\n\\\n\\\x7b\\\\".toList

/-- A mark and the quoted text with that inside. -/
def runsText : String :=
  String.ofList ("= \"".toList ++ runsBody ++ "\"".toList)

/-- The second token of that text. -/
def runsToken : Token := ⟨.string "\\\"n\n\n\x7b\\", 9⟩

theorem backslashes_pair_runsText :
    tokenize runsText 7 = .ok ⟨[⟨.mark .equals, 7⟩, runsToken], 24⟩ ∧
    ∃ pieces, Splits runsBody pieces ∧ pieces.countP isPair = 6 := by
  have tokenized : tokenize runsText 7 = .ok ⟨[⟨.mark .equals, 7⟩, runsToken], 24⟩ := by
    with_unfolding_all rfl
  have member : runsToken ∈ [⟨.mark .equals, 7⟩, runsToken] := List.mem_cons_of_mem _ (.head _)
  obtain ⟨before, body, after, pieces, whole, place, _, splits, _, _, shorter⟩ :=
    backslashes_pair.1 tokenized member rfl
  have start : before.length = 2 := by
    have : (9 : Int) = 7 + before.length := place
    omega
  have parts : runsText.toList = ['=', ' '] ++ (quoteMark :: runsBody ++ quoteMark :: []) := by
    decide
  obtain ⟨_, behind⟩ := List.append_inj (whole.symm.trans parts) start
  have closed : splitQuoted? (runsBody ++ quoteMark :: []) = some (runsBody, []) := rfl
  have quoted : QuotedBody body := splits.whole ▸ quotedBody_written pieces
  obtain ⟨rfl, _⟩ :=
    quoted.append_inj (splitQuoted?_eq_some_iff.mp closed).2 (List.cons.inj behind).2
  have lengths : "\\\"n\n\n\x7b\\".length = 7 ∧ runsBody.length = 13 := by decide
  exact ⟨tokenized, pieces, splits, by omega⟩

end TokenRow

end EditableTemplate
