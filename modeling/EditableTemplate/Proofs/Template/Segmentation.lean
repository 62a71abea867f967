import EditableTemplate.Proofs.Template.Pattern
import EditableTemplate.Proofs.Template.Token

/-!
# Cutting a text into lexemes

A text that has tokens is cut into the slices of its lexemes, each with the blank run before it, and
a blank run at the end (`Segmentation`). The cut is exact if each slice is the one chosen at the
start of what is left, and there is one exact cut at most (`Segmentation.Exact.eq_of_text`). Tokens
are read off an exact cut (`Segmentation.Exact.readFrom`). A text without one is cut exactly up to
the first place where no pattern matches, and that place is reported
(`TokenRow.tokenize_exact`).
-/

namespace EditableTemplate

/-- The positions of the tokens and of the end of the text. -/
def TokenRow.positions (row : TokenRow) : List Int :=
  row.tokens.map Token.position ++ [row.stop]

/-- A fault is located at a token or at the end of the text. -/
theorem TokenRow.getElem?_positions (row : TokenRow) (remaining : Nat) :
    row.positions[row.tokens.length - remaining]? = some (row.positionFromEnd remaining) := by
  unfold positions positionFromEnd
  split
  · rename_i token found
    rw [List.getElem?_append_left, List.getElem?_map, found, Option.map_some]
    rw [List.length_map]
    exact (List.getElem?_eq_some_iff.mp found).1
  · rename_i beyond
    have last : row.tokens.length - remaining = (row.tokens.map Token.position).length := by
      rw [List.length_map]
      have := List.getElem?_eq_none_iff.mp beyond
      omega
    rw [last, List.getElem?_concat_length]

/-- A text cut into slices: each with its lexeme and the gap before it, and the gap at the end. -/
inductive Segmentation
  /-- There is no lexeme. -/
  | last (gap : List Char)
  /-- The first lexeme comes from this slice, and this gap is before it. -/
  | token (gap slice : List Char) (lexeme : Lexeme) (rest : Segmentation)

namespace Segmentation

/-- The text that was cut. -/
def text : Segmentation → List Char
  | .last gap => gap
  | .token gap slice _ rest => gap ++ (slice ++ rest.text)

/-- The slices with their lexemes. -/
def pieces : Segmentation → List (List Char × Lexeme)
  | .last _ => []
  | .token _ slice lexeme rest => (slice, lexeme) :: rest.pieces

/-- The tokens of the text, which starts at a position, and where it ends. -/
def row (position : Int) : Segmentation → TokenRow
  | .last gap => ⟨[], position + gap.length⟩
  | .token gap slice lexeme rest =>
    let start := position + gap.length
    let onward := rest.row (start + slice.length)
    { onward with tokens := ⟨lexeme, start⟩ :: onward.tokens }

/-- Every gap is blank, and every lexeme is read from the slice that is chosen where the gap before
it ends. -/
def Exact : Segmentation → Prop
  | .last gap => ∀ c ∈ gap, Text.isBlank c = true
  | .token gap slice lexeme rest =>
    (∀ c ∈ gap, Text.isBlank c = true) ∧ lexeme.TakenFrom (slice ++ rest.text) slice ∧ rest.Exact

/-- The same cut of a text with one more character in front. -/
def pad (c : Char) : Segmentation → Segmentation
  | .last gap => .last (c :: gap)
  | .token gap slice lexeme rest => .token (c :: gap) slice lexeme rest

theorem text_pad (c : Char) (parts : Segmentation) : (parts.pad c).text = c :: parts.text := by
  cases parts <;> rfl

/-- A blank in front leaves the cut of a text exact. -/
theorem Exact.pad {c : Char} {parts : Segmentation} (blank : Text.isBlank c = true)
    (exact : parts.Exact) : (parts.pad c).Exact := by
  cases parts with
  | last gap => exact List.forall_mem_cons.mpr ⟨blank, exact⟩
  | token gap slice lexeme rest =>
      exact ⟨List.forall_mem_cons.mpr ⟨blank, exact.1⟩, exact.2⟩

/-! ## Places of tokens -/

theorem lexemes_row (parts : Segmentation) (position : Int) :
    (parts.row position).lexemes = parts.pieces.map Prod.snd := by
  induction parts generalizing position with
  | last gap => rfl
  | token gap slice lexeme rest ih => exact congrArg (lexeme :: ·) (ih _)

/-- Tokens stand in the text, which ends where the row does. -/
theorem bounds_of_mem_positions {parts : Segmentation} {position place : Int}
    (member : place ∈ (parts.row position).positions) :
    position ≤ place ∧ place ≤ position + parts.text.length := by
  induction parts generalizing position with
  | last gap =>
      obtain rfl := List.mem_singleton.mp member
      simp only [row, text]
      omega
  | token gap slice lexeme rest ih =>
      simp only [text, List.length_append]
      rcases List.mem_cons.mp member with rfl | later
      · simp only
        omega
      · have := ih later
        omega

/-- A token is read where it stands, from the rest of the text. -/
theorem Exact.exists_place_of_mem {parts : Segmentation} (exact : parts.Exact) {position : Int}
    {token : Token} (member : token ∈ (parts.row position).tokens) :
    ∃ before slice after, parts.text = before ++ (slice ++ after) ∧
      token.position = position + before.length ∧
      token.lexeme.TakenFrom (slice ++ after) slice := by
  induction parts generalizing position with
  | last gap => cases member
  | token gap slice lexeme rest ih =>
      obtain ⟨_, taken, others⟩ := exact
      rcases List.mem_cons.mp member with rfl | later
      · exact ⟨gap, slice, rest.text, rfl, rfl, taken⟩
      · obtain ⟨before, slice', after, whole, place, taken'⟩ := ih others later
        refine ⟨gap ++ (slice ++ before), slice', after, ?_, ?_, taken'⟩
        · rw [text, whole, List.append_assoc, List.append_assoc]
        · rw [place, List.length_append, List.length_append]
          omega

/-- Every lexeme of an exact cut shows its slice. -/
theorem Exact.shows {parts : Segmentation} (exact : parts.Exact) :
    ∀ piece ∈ parts.pieces, piece.2.Shows piece.1 := by
  induction parts with
  | last gap => exact List.forall_mem_nil _
  | token gap slice lexeme rest ih =>
      exact List.forall_mem_cons.mpr ⟨exact.2.1.shows, ih exact.2.2⟩

/-! ## Reading and cutting -/

/-- Blanks in front of a text only move its tokens. -/
theorem readFrom_gap {gap : List Char} (blank : ∀ c ∈ gap, Text.isBlank c = true) (position : Int)
    (text : List Char) :
    TokenRow.readFrom position (gap ++ text) = TokenRow.readFrom (position + gap.length) text := by
  induction gap generalizing position with
  | nil => simp
  | cons c gap ih =>
      obtain ⟨first, others⟩ := List.forall_mem_cons.mp blank
      rw [List.cons_append, TokenRow.readFrom_cons, if_pos first, ih others, List.length_cons]
      congr 1
      omega

/-- The tokens of a text that is cut exactly are those of the cut. -/
theorem Exact.readFrom {parts : Segmentation} (exact : parts.Exact) (position : Int) :
    TokenRow.readFrom position parts.text = .ok (parts.row position) := by
  induction parts generalizing position with
  | last gap =>
      have past := readFrom_gap exact position []
      rw [List.append_nil, TokenRow.readFrom] at past
      exact past
  | token gap slice lexeme rest ih =>
      obtain ⟨blank, taken, others⟩ := exact
      obtain ⟨c, tail, rfl, visible⟩ := taken.exists_visible
      have read : Lexeme.read c (tail ++ rest.text) = .ok ⟨lexeme, c :: tail, rest.text⟩ :=
        Lexeme.read_eq_ok_iff.mpr ⟨rfl, taken⟩
      have onward := ih others (position + gap.length + (c :: tail).length)
      rw [text, readFrom_gap blank, List.cons_append, TokenRow.readFrom_cons,
        if_neg (Bool.eq_false_iff.mp visible), read]
      simp only [onward]
      rfl

/-- An exactly cut text has the tokens of the cut. -/
theorem Exact.tokenize_text {parts : Segmentation} (exact : parts.Exact) (position : Int) :
    TokenRow.tokenize (String.ofList parts.text) position = .ok (parts.row position) := by
  rw [TokenRow.tokenize, String.toList_ofList, exact.readFrom]

/-- The gap before the first lexeme is the blank run that the text starts with. -/
theorem Exact.takeWhile_text {gap slice : List Char} {lexeme : Lexeme} {rest : Segmentation}
    (exact : (token gap slice lexeme rest).Exact) :
    (token gap slice lexeme rest).text.takeWhile Text.isBlank = gap ∧
      (token gap slice lexeme rest).text.dropWhile Text.isBlank = slice ++ rest.text := by
  obtain ⟨blank, taken, _⟩ := exact
  obtain ⟨c, tail, rfl, visible⟩ := taken.exists_visible
  apply Text.takeWhile_run blank
  intro d first
  obtain rfl := Option.some.inj first
  exact visible

/-- A text with a token is not blank. -/
theorem Exact.not_blank_text {gap slice : List Char} {lexeme : Lexeme} {rest : Segmentation}
    (exact : (token gap slice lexeme rest).Exact) :
    ¬∀ c ∈ (token gap slice lexeme rest).text, Text.isBlank c = true := by
  intro blank
  obtain ⟨c, tail, rfl, visible⟩ := exact.2.1.exists_visible
  cases visible.symm.trans (blank c (by simp [text]))

/-- There is one exact cut of a text at most. -/
theorem Exact.eq_of_text {first second : Segmentation} (left : first.Exact)
    (right : second.Exact) (same : first.text = second.text) : first = second := by
  induction first generalizing second with
  | last gap =>
      cases second with
      | last gap' => exact congrArg last same
      | token gap' slice lexeme rest => exact (right.not_blank_text (same ▸ left)).elim
  | token gap slice lexeme rest ih =>
      cases second with
      | last gap' => exact (left.not_blank_text (same ▸ right)).elim
      | token gap' slice' lexeme' rest' =>
          obtain ⟨run, onward⟩ := left.takeWhile_text
          obtain ⟨run', onward'⟩ := right.takeWhile_text
          rw [same] at run onward
          obtain rfl := run.symm.trans run'
          have behind := onward.symm.trans onward'
          obtain ⟨_, taken, others⟩ := left
          obtain ⟨_, taken', others'⟩ := right
          rw [behind] at taken
          obtain ⟨rfl, rfl⟩ := taken.unique taken'
          rw [ih others others' (List.append_cancel_left behind)]

end Segmentation

namespace TokenRow

/-- A text is cut exactly, or else up to a place where no pattern matches and which is reported. -/
theorem exists_exact_or_noneMatches (position : Int) (text : List Char) :
    (∃ parts : Segmentation, parts.Exact ∧ parts.text = text) ∨
      ∃ (parts : Segmentation) (c : Char) (after : List Char), parts.Exact ∧
        text = parts.text ++ c :: after ∧ Pattern.NoneMatches (c :: after) ∧
        readFrom position text =
          .error (.malformed (Lexeme.refusal c) (position + parts.text.length)) := by
  fun_induction readFrom position text with
  | case1 position => exact .inl ⟨.last [], List.forall_mem_nil _, rfl⟩
  | case2 position c rest blank ih =>
      rcases ih with ⟨parts, exact, rfl⟩ | ⟨parts, d, after, exact, rfl, none, failed⟩
      · exact .inl ⟨parts.pad c, exact.pad blank, Segmentation.text_pad c parts⟩
      · refine .inr ⟨parts.pad c, d, after, exact.pad blank, ?_, none, ?_⟩
        · rw [Segmentation.text_pad, List.cons_append]
        · rw [failed, Segmentation.text_pad, List.length_cons]
          congr 2
          omega
  | case3 position c rest visible fault failed =>
      obtain ⟨none, rfl⟩ := Lexeme.noneMatches_of_read (Bool.eq_false_iff.mpr visible) failed
      exact .inr ⟨.last [], c, rest, List.forall_mem_nil _, rfl, none, by simp [Segmentation.text]⟩
  | case4 position c rest visible reading found ih =>
      have taken := Lexeme.takenFrom_of_read found
      rw [(Lexeme.read_covers found).whole] at taken ⊢
      rcases ih with ⟨parts, exact, same⟩ | ⟨parts, d, after, exact, same, none, failed⟩
      · rw [← same] at taken ⊢
        refine .inl ⟨.token [] reading.slice reading.lexeme parts,
          ⟨List.forall_mem_nil _, taken, exact⟩, rfl⟩
      · rw [same] at taken
        have shorter : reading.slice ++ parts.text <+:
            reading.slice ++ (parts.text ++ d :: after) := ⟨d :: after, by simp⟩
        have cut := taken.of_shorter shorter (List.prefix_append _ _)
        refine .inr ⟨.token [] reading.slice reading.lexeme parts, d, after,
          ⟨List.forall_mem_nil _, cut, exact⟩, ?_, none, ?_⟩
        · simp [Segmentation.text, same]
        · rw [failed]
          simp only [Segmentation.text, List.nil_append, List.length_append, Int.natCast_add,
            Int.add_assoc]
          rfl

/-- A text that has tokens is cut exactly, and they are those of the cut. -/
theorem exists_exact_of_tokenize {text : String} {position : Int} {row : TokenRow}
    (tokenized : tokenize text position = .ok row) :
    ∃ parts : Segmentation, parts.Exact ∧ parts.text = text.toList ∧ row = parts.row position := by
  rcases exists_exact_or_noneMatches position text.toList with
    ⟨parts, exact, same⟩ | ⟨parts, _, _, _, _, _, failed⟩
  · refine ⟨parts, exact, same, Except.ok.inj (tokenized.symm.trans ?_)⟩
    rw [tokenize, ← same, exact.readFrom]
  · cases tokenized.symm.trans failed

/-- A token stands in the text at its position, in front of what is read next. -/
theorem exists_place_of_tokenize {text : String} {position : Int} {row : TokenRow} {token : Token}
    (tokenized : tokenize text position = .ok row) (member : token ∈ row.tokens) :
    ∃ before slice after, text.toList = before ++ (slice ++ after) ∧
      token.position = position + before.length ∧
      token.lexeme.TakenFrom (slice ++ after) slice := by
  obtain ⟨parts, exact, same, rfl⟩ := exists_exact_of_tokenize tokenized
  rw [← same]
  exact exact.exists_place_of_mem member

/-- A text that one lexeme is taken from is one token. -/
theorem tokenize_of_takenFrom {slice : List Char} {lexeme : Lexeme}
    (taken : lexeme.TakenFrom slice slice) (position : Int) :
    tokenize (String.ofList slice) position =
      .ok ⟨[⟨lexeme, position⟩], position + slice.length⟩ := by
  have exact : (Segmentation.token [] slice lexeme (.last [])).Exact := by
    refine ⟨List.forall_mem_nil _, ?_, List.forall_mem_nil _⟩
    rwa [Segmentation.text, List.append_nil]
  have tokenized := exact.tokenize_text position
  simpa [Segmentation.text, Segmentation.row] using tokenized

/-- A text without tokens is cut exactly up to the place that is reported. -/
theorem exists_of_tokenize_error {text : String} {position : Int} {failure : Failure}
    (failed : tokenize text position = .error failure) :
    ∃ (parts : Segmentation) (c : Char) (after : List Char), parts.Exact ∧
      text.toList = parts.text ++ c :: after ∧ Pattern.NoneMatches (c :: after) ∧
      failure = .malformed (Lexeme.refusal c) (position + parts.text.length) := by
  rcases exists_exact_or_noneMatches position text.toList with
    ⟨parts, exact, same⟩ | ⟨parts, c, after, exact, same, none, failed'⟩
  · rw [tokenize, ← same, exact.readFrom] at failed
    cases failed
  · exact ⟨parts, c, after, exact, same, none, Except.error.inj (failed.symm.trans failed')⟩

end TokenRow

end EditableTemplate
