import EditableTemplate.Proofs.Template.Segmentation
import EditableTemplate.Template.Grammar

/-!
# Blanks between tokens

The blanks in front of a lexeme may be any others, and so may the blanks at both ends of a text; but
where there are some between two lexemes, some must stay (`Segmentation.Relaid`). Then the slices
are still the ones chosen (`Segmentation.Relaid.exact`), the lexemes are the same, and the two texts
are parsed alike: to one expression, or with one fault at the same token
(`Segmentation.Relaid.corresponds`).
-/

namespace EditableTemplate

/-- Two attempts come out alike: with one result, or with one fault at places of the same number
among the places of either. -/
inductive Failure.Corresponds {α : Type} (places others : List Int) :
    Except Failure α → Except Failure α → Prop
  /-- Both succeed. -/
  | ok (result : α) : Corresponds places others (.ok result) (.ok result)
  /-- Both fail with one fault. -/
  | malformed (fault : SyntaxFault) (index : Nat) {place other : Int}
    (here : places[index]? = some place) (there : others[index]? = some other) :
    Corresponds places others (.error (.malformed fault place)) (.error (.malformed fault other))

namespace Failure.Corresponds

variable {α β : Type} {places others : List Int} {first second : Except Failure α}

/-- Attempts that come out alike come to the same result. -/
theorem eq_ok {result : α} (alike : Corresponds places others (.ok result) second) :
    second = .ok result := by
  cases alike
  rfl

/-- Attempts come out alike whatever is done with the result. -/
theorem map (alike : Corresponds places others first second) (f : α → β) :
    Corresponds places others (first.map f) (second.map f) := by
  cases alike with
  | ok result => exact .ok (f result)
  | malformed fault index here there => exact .malformed fault index here there

/-- More places may follow. -/
theorem append (alike : Corresponds places others first second) (more after : List Int) :
    Corresponds (places ++ more) (others ++ after) first second := by
  cases alike with
  | ok result => exact .ok result
  | malformed fault index here there =>
      refine .malformed fault index ?_ ?_
      · rw [List.getElem?_append_left (List.getElem?_eq_some_iff.mp here).1, here]
      · rw [List.getElem?_append_left (List.getElem?_eq_some_iff.mp there).1, there]

/-- As many places may come before. -/
theorem prepend (alike : Corresponds places others first second) {before earlier : List Int}
    (lengths : before.length = earlier.length) :
    Corresponds (before ++ places) (earlier ++ others) first second := by
  cases alike with
  | ok result => exact .ok result
  | malformed fault index here there =>
      refine .malformed fault (before.length + index) ?_ ?_
      · rw [List.getElem?_append_right (Nat.le_add_right ..), Nat.add_sub_cancel_left, here]
      · rw [lengths, List.getElem?_append_right (Nat.le_add_right ..), Nat.add_sub_cancel_left,
          there]

/-- Attempts that start alike and go on alike are alike. -/
theorem bind {more after : List Int} {next onward : α → Except Failure β}
    (alike : Corresponds places others first second) (lengths : places.length = others.length)
    (alike' : ∀ result, Corresponds more after (next result) (onward result)) :
    Corresponds (places ++ more) (others ++ after) (first >>= next) (second >>= onward) := by
  cases alike with
  | ok result => exact (alike' result).prepend lengths
  | malformed fault index here there =>
      exact append (.malformed fault index here there) more after

end Failure.Corresponds

namespace Segmentation

variable {parts other : Segmentation}

/-- The same lexemes from the same slices, with other gaps of blanks. Where a gap was not empty the
other one is not either. -/
inductive Respaced : Segmentation → Segmentation → Prop
  /-- The gap at the end may be any other. -/
  | last (gap : List Char) {spaced : List Char} (blank : ∀ c ∈ spaced, Text.isBlank c = true) :
    Respaced (.last gap) (.last spaced)
  /-- The gap before a lexeme stays open. -/
  | token {gap spaced : List Char} (slice : List Char) (lexeme : Lexeme)
    {rest onward : Segmentation} (blank : ∀ c ∈ spaced, Text.isBlank c = true)
    (opened : gap ≠ [] → spaced ≠ []) (others : Respaced rest onward) :
    Respaced (.token gap slice lexeme rest) (.token spaced slice lexeme onward)

/-- The same lexemes from the same slices, with other gaps of blanks. Only between two lexemes must
a gap that was not empty stay so. -/
inductive Relaid : Segmentation → Segmentation → Prop
  /-- There is no lexeme. -/
  | last (gap : List Char) {spaced : List Char} (blank : ∀ c ∈ spaced, Text.isBlank c = true) :
    Relaid (.last gap) (.last spaced)
  /-- The gap before the first lexeme may be any other. -/
  | token (gap : List Char) {spaced : List Char} (slice : List Char) (lexeme : Lexeme)
    {rest onward : Segmentation} (blank : ∀ c ∈ spaced, Text.isBlank c = true)
    (others : Respaced rest onward) :
    Relaid (.token gap slice lexeme rest) (.token spaced slice lexeme onward)

/-! ## The same lexemes -/

/-- Behind a lexeme both texts go on alike up to where the second is blank or ends. -/
theorem Respaced.exists_shared (respaced : parts.Respaced other) :
    ∃ shared rest onward, parts.text = shared ++ rest ∧ other.text = shared ++ onward ∧
      ∀ c ∈ onward.head?, Text.isBlank c = true := by
  induction respaced with
  | last gap blank =>
      exact ⟨[], gap, _, rfl, rfl, fun c first => blank c (List.mem_of_mem_head? first)⟩
  | @token gap spaced slice lexeme rest onward blank opened others ih =>
      cases spaced with
      | cons c spaced =>
          refine ⟨[], _, _, rfl, rfl, ?_⟩
          intro d first
          obtain rfl := Option.some.inj first
          exact blank _ (List.mem_cons_self ..)
      | nil =>
          obtain rfl : gap = [] := by
            by_contra nonempty
            exact opened nonempty rfl
          obtain ⟨shared, left, behind, same, same', ends⟩ := ih
          refine ⟨slice ++ shared, left, behind, ?_, ?_, ends⟩
          · simp [text, same]
          · simp [text, same']

/-- The first lexeme of a text is read from the same slice when the gaps behind it change. -/
theorem Respaced.takenFrom {slice : List Char} {lexeme : Lexeme} (respaced : parts.Respaced other)
    (taken : lexeme.TakenFrom (slice ++ parts.text) slice) :
    lexeme.TakenFrom (slice ++ other.text) slice := by
  obtain ⟨shared, rest, onward, same, same', ends⟩ := respaced.exists_shared
  rw [same] at taken
  rw [same']
  exact taken.respaced ends

/-- An exact cut stays exact with other gaps of blanks. -/
theorem Respaced.exact (respaced : parts.Respaced other) (exact : parts.Exact) : other.Exact := by
  induction respaced with
  | last gap blank => exact blank
  | token slice lexeme blank opened others ih =>
      exact ⟨blank, others.takenFrom exact.2.1, ih exact.2.2⟩

/-- Other blanks keep a cut exact. -/
theorem Relaid.exact (relaid : parts.Relaid other) (exact : parts.Exact) : other.Exact := by
  cases relaid with
  | last gap blank => exact blank
  | token gap slice lexeme blank others =>
      exact ⟨blank, others.takenFrom exact.2.1, others.exact exact.2.2⟩

/-- Respacing keeps the slices and their lexemes. -/
theorem Respaced.pieces_eq (respaced : parts.Respaced other) : other.pieces = parts.pieces := by
  induction respaced with
  | last gap blank => rfl
  | token slice lexeme blank opened others ih => exact congrArg ((slice, lexeme) :: ·) ih

theorem Relaid.pieces_eq (relaid : parts.Relaid other) : other.pieces = parts.pieces := by
  cases relaid with
  | last gap blank => rfl
  | token gap slice lexeme blank others =>
      exact congrArg ((slice, lexeme) :: ·) others.pieces_eq

theorem length_tokens_row (parts : Segmentation) (position : Int) :
    (parts.row position).tokens.length = parts.pieces.length := by
  have lengths := congrArg List.length (parts.lexemes_row position)
  rwa [TokenRow.lexemes, List.length_map, List.length_map] at lengths

/-- A cut has a position for every slice and one for the end. -/
theorem length_positions_row (parts : Segmentation) (position : Int) :
    (parts.row position).positions.length = parts.pieces.length + 1 := by
  rw [TokenRow.positions, List.length_append, List.length_map, length_tokens_row]
  rfl

/-! ## The same expression -/

/-- An expression is parsed from the lexemes of an exact cut; the places of faults are those of its
tokens. -/
theorem Exact.parse_text (exact : parts.Exact) (position : Int) :
    Expression.parse (String.ofList parts.text) position =
      if parts.pieces = [] then .error (.malformed .emptyPlaceholder position)
      else match Expression.ofLexemes (parts.pieces.map Prod.snd) with
        | .ok expression => .ok expression
        | .error fault => .error (.malformed fault.fault
            ((parts.row position).positionFromEnd fault.remaining)) := by
  rw [Expression.parse, exact.tokenize_text, ← parts.lexemes_row position]
  cases parts with
  | last gap => rfl
  | token gap slice lexeme rest => rfl

/-- A content that is parsed has a token. -/
theorem Exact.pieces_ne_nil_of_parse {expression : Expression} (exact : parts.Exact)
    {position : Int}
    (parsed : Expression.parse (String.ofList parts.text) position = .ok expression) :
    parts.pieces ≠ [] := by
  intro none
  rw [exact.parse_text, if_pos none] at parsed
  cases parsed

/-- **Other blanks, the same expression.** -/
theorem Relaid.corresponds (relaid : parts.Relaid other) (exact : parts.Exact)
    (some : parts.pieces ≠ []) (position position' : Int) :
    Failure.Corresponds (parts.row position).positions (other.row position').positions
      (Expression.parse (String.ofList parts.text) position)
      (Expression.parse (String.ofList other.text) position') := by
  have same := relaid.pieces_eq
  rw [exact.parse_text, (relaid.exact exact).parse_text, same, if_neg some, if_neg some]
  cases Expression.ofLexemes (parts.pieces.map Prod.snd) with
  | ok expression => exact .ok expression
  | error fault =>
      have here := (parts.row position).getElem?_positions fault.remaining
      have there := (other.row position').getElem?_positions fault.remaining
      rw [length_tokens_row] at here there
      rw [same] at there
      exact .malformed fault.fault _ here there

/-! ## Without the blanks at the ends -/

/-- The cut without the gap at the end. -/
def trimEnd : Segmentation → Segmentation
  | .last _ => .last []
  | .token gap slice lexeme rest => .token gap slice lexeme rest.trimEnd

/-- The cut without the gaps at both ends. -/
def trim : Segmentation → Segmentation
  | .last _ => .last []
  | .token _ slice lexeme rest => .token [] slice lexeme rest.trimEnd

/-- Without the gap at the end an exact cut is respaced. -/
theorem Exact.respaced_trimEnd (exact : parts.Exact) : parts.Respaced parts.trimEnd := by
  induction parts with
  | last gap => exact .last gap (List.forall_mem_nil _)
  | token gap slice lexeme rest ih => exact .token slice lexeme exact.1 id (ih exact.2.2)

/-- Without the gaps at both ends an exact cut is relaid. -/
theorem Exact.relaid_trim (exact : parts.Exact) : parts.Relaid parts.trim := by
  cases parts with
  | last gap => exact .last gap (List.forall_mem_nil _)
  | token gap slice lexeme rest =>
      exact .token gap slice lexeme (List.forall_mem_nil _) exact.2.2.respaced_trimEnd

theorem Respaced.trimEnd (respaced : parts.Respaced other) :
    parts.trimEnd.Respaced other.trimEnd := by
  induction respaced with
  | last gap blank => exact .last [] (List.forall_mem_nil _)
  | token slice lexeme blank opened others ih => exact .token slice lexeme blank opened ih

/-- Cuts that are relaid are so without the gaps at both ends. -/
theorem Relaid.trim (relaid : parts.Relaid other) : parts.trim.Relaid other.trim := by
  cases relaid with
  | last gap blank => exact .last [] (List.forall_mem_nil _)
  | token gap slice lexeme blank others =>
      exact .token [] slice lexeme (List.forall_mem_nil _) others.trimEnd

/-- The gap at the end of an exact cut is blank. -/
theorem Exact.exists_text_trimEnd (exact : parts.Exact) :
    ∃ gap, (∀ c ∈ gap, Text.isBlank c = true) ∧ parts.text = parts.trimEnd.text ++ gap := by
  induction parts with
  | last gap => exact ⟨gap, exact, rfl⟩
  | token before slice lexeme rest ih =>
      obtain ⟨gap, blank, same⟩ := ih exact.2.2
      exact ⟨gap, blank, by simp [text, Segmentation.trimEnd, same]⟩

/-- A slice and what is cut behind it end with a character that is not blank, if the gap at the end
is left out. -/
theorem Exact.getLast?_append_trimEnd {before : List Char} (exact : parts.Exact)
    (ends : ∃ c, before.getLast? = some c ∧ Text.isBlank c = false) :
    ∃ c, (before ++ parts.trimEnd.text).getLast? = some c ∧ Text.isBlank c = false := by
  induction parts generalizing before with
  | last gap => simpa [Segmentation.trimEnd, text] using ends
  | token gap slice lexeme rest ih =>
      obtain ⟨_, last, _, final, _, visible, _⟩ := exact.2.1.ends
      obtain ⟨c, last', visible'⟩ := ih exact.2.2 ⟨last, final, visible⟩
      refine ⟨c, ?_, visible'⟩
      rw [Segmentation.trimEnd, text, List.getLast?_append, List.getLast?_append, last']
      rfl

/-- Trimming a text removes the gaps at both ends of its cut. -/
theorem Exact.trim_text (exact : parts.Exact) (some : parts.pieces ≠ []) :
    Text.trim parts.text = parts.trim.text := by
  cases parts with
  | last gap => exact (some rfl).elim
  | token gap slice lexeme rest =>
      obtain ⟨blank, taken, others⟩ := exact
      obtain ⟨after, blank', same⟩ := others.exists_text_trimEnd
      obtain ⟨first, last, starts, final, ⟨visible, _⟩, visible', _⟩ := taken.ends
      have tight : Text.Tight (slice ++ rest.trimEnd.text) :=
        ⟨⟨first, by rw [List.head?_append, starts]; rfl, visible⟩,
          others.getLast?_append_trimEnd ⟨last, final, visible'⟩⟩
      have whole : (token gap slice lexeme rest).text =
          gap ++ (slice ++ rest.trimEnd.text) ++ after := by
        simp [text, same]
      rw [whole, Text.trim_padded tight blank blank']
      rfl

/-- A text with one lexeme is its slice with blanks around it. -/
theorem Exact.trim_text_of_pieces {slice : List Char} {lexeme : Lexeme} (exact : parts.Exact)
    (one : parts.pieces = [(slice, lexeme)]) : Text.trim parts.text = slice := by
  have some : parts.pieces ≠ [] := by
    rw [one]
    exact List.cons_ne_nil _ _
  rw [exact.trim_text some]
  match parts, one with
  | .token _ _ _ (.last _), rfl => simp [Segmentation.trim, Segmentation.trimEnd, text]

end Segmentation

end EditableTemplate
