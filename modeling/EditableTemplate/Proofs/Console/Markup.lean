import EditableTemplate.CommandLine.Report
import EditableTemplate.Proofs.Template.Lexeme

/-!
# Marked-up text on the console

A text without opening brackets, backslashes and control characters has no tags and is shown as it
stands (`Markup.shown_append`), escaping does not change it (`Markup.escape_eq_self`), and a tag
before it is not shown (`Markup.shown_tag`). So a line on an error shows the word for that and the
text (`CommandLine.errorLine_eq`).
-/

namespace EditableTemplate

namespace Markup

/-- A character that means nothing to the console but itself. -/
def isInert (c : Char) : Bool :=
  c ≠ '[' && c ≠ '\\' && !isControl c

/-- What is shown of a marked-up text, as characters. -/
def shown (markup : List Char) : List Char :=
  (plainPieces (pieces markup)).filter fun c => !isControl c

theorem plain_eq (markup : String) : plain markup = String.ofList (shown markup.toList) := rfl

variable {c : Char} {text rest : List Char}

/-- An inert character is no bracket, no backslash and no control character. -/
theorem ne_of_isInert (inert : isInert c = true) : c ≠ '[' ∧ c ≠ '\\' ∧ isControl c = false := by
  simpa [isInert, and_assoc] using inert

/-- A piece that starts with an ordinary character is that character. -/
theorem pieces_cons (inert : isInert c = true) (rest : List Char) :
    pieces (c :: rest) = .character c :: pieces rest := by
  obtain ⟨bracket, backslash, _⟩ := ne_of_isInert inert
  have noTag : tag? (afterBackslashes (c :: rest)) = none := by
    rw [afterBackslashes, List.dropWhile_cons_of_neg (by simpa using backslash)]
    simp [tag?, bracket]
  rw [pieces]
  split
  · rename_i found
    cases noTag.symm.trans found
  · rfl

/-- Inert characters are pieces of their own, whatever follows. -/
theorem pieces_append (inert : ∀ c ∈ text, isInert c = true) (rest : List Char) :
    pieces (text ++ rest) = text.map Piece.character ++ pieces rest := by
  induction text with
  | nil => rfl
  | cons c text ih =>
      rw [List.cons_append, pieces_cons (inert c List.mem_cons_self),
        ih fun other member => inert other (List.mem_cons_of_mem _ member)]
      rfl

theorem pieces_nil : pieces [] = [] := by
  rw [pieces]
  rfl

theorem pieces_eq (inert : ∀ c ∈ text, isInert c = true) :
    pieces text = text.map Piece.character := by
  have whole := pieces_append inert []
  rwa [pieces_nil, List.append_nil, List.append_nil] at whole

theorem plainPieces_append (inert : ∀ c ∈ text, isInert c = true) (rest : List Piece) :
    plainPieces (text.map Piece.character ++ rest) = text ++ plainPieces rest := by
  induction text with
  | nil => rfl
  | cons c text ih =>
      have ordinary := (ne_of_isInert (inert c List.mem_cons_self)).2.1
      rw [List.map_cons, List.cons_append, plainPieces,
        ih fun other member => inert other (List.mem_cons_of_mem _ member)]
      · rfl
      · exact fun _ _ same => ordinary same

/-- Text without markup is shown as it stands, whatever follows. -/
theorem shown_append (inert : ∀ c ∈ text, isInert c = true) (rest : List Char) :
    shown (text ++ rest) = text ++ shown rest := by
  have kept : text.filter (fun c => !isControl c) = text := by
    apply List.filter_eq_self.mpr
    intro c member
    rw [(ne_of_isInert (inert c member)).2.2]
    rfl
  rw [shown, pieces_append inert, plainPieces_append inert, List.filter_append, kept, shown]

/-- A tag is closed at the first bracket. -/
theorem closeTag?_append (clean : ∀ c ∈ text, c ≠ '[' ∧ c ≠ ']') (rest : List Char) :
    closeTag? (text ++ ']' :: rest) = some (text, rest) := by
  induction text with
  | nil => simp [closeTag?]
  | cons c text ih =>
      obtain ⟨opening, closing⟩ := clean c List.mem_cons_self
      have tail := ih fun other member => clean other (List.mem_cons_of_mem _ member)
      simp [closeTag?, opening, closing, tail]

/-- A tag is not shown. -/
theorem shown_tag (starts : startsTag c = true) (clean : ∀ other ∈ text, other ≠ '[' ∧ other ≠ ']')
    (rest : List Char) : shown ('[' :: c :: (text ++ ']' :: rest)) = shown rest := by
  have found : tag? (afterBackslashes ('[' :: c :: (text ++ ']' :: rest))) =
      some (c :: text, rest) := by
    rw [afterBackslashes, List.dropWhile_cons_of_neg (by decide), tag?, if_pos starts,
      closeTag?_append clean]
    rfl
  have cut : pieces ('[' :: c :: (text ++ ']' :: rest)) = .tag 0 (c :: text) :: pieces rest := by
    rw [pieces]
    split
    · rename_i found'
      cases found.symm.trans found'
      rfl
    · rename_i none
      cases found.symm.trans none
  rw [shown, cut]
  rfl

/-- Escaping leaves text without markup as it is. -/
theorem escape_eq_self {text : String} (inert : ∀ c ∈ text.toList, isInert c = true) :
    escape text = text := by
  have same : (text.toList.map Piece.character).flatMap Piece.escaped = text.toList := by
    rw [List.flatMap_map]
    exact List.flatMap_singleton' _
  have nothing : leadingBackslashes text.toList.reverse = [] := by
    cases last : text.toList.reverse with
    | nil => rfl
    | cons c rest =>
        have member : c ∈ text.toList := by
          rw [← List.mem_reverse, last]
          exact List.mem_cons_self
        have ordinary := (ne_of_isInert (inert c member)).2.1
        exact List.takeWhile_cons_of_neg (by simpa using ordinary)
  rw [escape, pieces_eq inert, same, endsInBackslash, nothing]
  exact String.ofList_toList

/-- Of a heading in a style and a text after it the heading and the text are shown. -/
theorem plain_styled_append {style heading text : String} {c : Char} {name : List Char}
    (styled_eq : style.toList = c :: name) (starts : startsTag c = true)
    (clean : ∀ other ∈ style.toList, other ≠ '[' ∧ other ≠ ']')
    (inertHeading : ∀ c ∈ heading.toList, isInert c = true)
    (inert : ∀ c ∈ text.toList, isInert c = true) :
    plain (styled style heading ++ text) = heading ++ text := by
  have opened : ∀ other ∈ name, other ≠ '[' ∧ other ≠ ']' := by
    intro other member
    exact clean other (styled_eq ▸ List.mem_cons_of_mem c member)
  have parts : (styled style heading ++ text).toList =
      '[' :: c :: (name ++ ']' :: (heading.toList ++
        '[' :: '/' :: (style.toList ++ ']' :: text.toList))) := by
    simp [styled, styled_eq, toString]
  rw [plain_eq, parts, shown_tag starts opened, shown_append inertHeading,
    shown_tag (by decide) clean]
  have whole := shown_append inert []
  rw [List.append_nil] at whole
  rw [whole]
  simp [shown, pieces_nil, plainPieces]

/-- The characters of names mean nothing to the console. -/
theorem isInert_of_isNameChar (inside : isNameChar c = true) : isInert c = true := by
  have low : 45 ≤ c.toNat := (Lexeme.bounds_of_isNameChar inside).1
  have ordinary : isControl c = false := by
    simp [isControl]
    omega
  have bracket : c ≠ '[' := by
    rintro rfl
    cases inside
  have backslash : c ≠ '\\' := by
    rintro rfl
    cases inside
  simp [isInert, bracket, backslash, ordinary]

/-- Names are inert. -/
theorem isInert_of_isName {name : String} (isName : IsName name) :
    ∀ c ∈ name.toList, isInert c = true := by
  obtain ⟨first, rest, characters, start, inside⟩ := isName.shape
  have all : ∀ c ∈ first :: rest, isNameChar c = true := by
    intro c member
    cases member with
    | head =>
        cases Bool.or_eq_true_iff.mp start with
        | inl alpha => simp [isNameChar, Char.isAlphanum, alpha]
        | inr underscore => simp [isNameChar, of_decide_eq_true underscore]
    | tail _ later => exact List.all_eq_true.mp inside c later
  intro c member
  exact isInert_of_isNameChar (all c (characters ▸ member))

/-- The digits of a number are inert. -/
theorem isInert_of_mem_digits {number : Nat} (member : c ∈ (toString number).toList) :
    isInert c = true := by
  have digit : c.isDigit = true := by
    rw [Nat.toString_eq_repr, Nat.repr, String.toList_ofList] at member
    exact Digits.isDigit_of_mem member
  apply isInert_of_isNameChar
  simp [isNameChar, Char.isAlphanum, digit]

/-- Inert parts with an inert separator between them are inert. -/
theorem isInert_of_mem_intercalate {separator : String} {parts : List String}
    (between : ∀ c ∈ separator.toList, isInert c = true)
    (inert : ∀ part ∈ parts, ∀ c ∈ part.toList, isInert c = true) :
    ∀ c ∈ (String.intercalate separator parts).toList, isInert c = true := by
  induction parts with
  | nil => simp
  | cons part rest ih =>
      have first := inert part List.mem_cons_self
      have tail := ih fun other member => inert other (List.mem_cons_of_mem _ member)
      cases rest with
      | nil => simpa using first
      | cons second rest =>
          intro c member
          rw [String.intercalate_cons_cons, String.toList_append, String.toList_append,
            List.mem_append, List.mem_append] at member
          rcases member with (inside | inside) | inside
          · exact first c inside
          · exact between c inside
          · exact tail c inside

end Markup

/-- The line on an error that is told without markup. -/
theorem CommandLine.errorLine_eq {text : String}
    (inert : ∀ c ∈ text.toList, Markup.isInert c = true) :
    errorLine text = .line ("Error: " ++ text) := by
  have spaced : ∀ c ∈ (" " ++ text).toList, Markup.isInert c = true := by
    intro c member
    rw [String.toList_append, List.mem_append] at member
    cases member with
    | inl space =>
        obtain rfl := List.mem_singleton.mp space
        decide
    | inr inside => exact inert c inside
  have shown : Markup.plain (Markup.styled "bold red" "Error:" ++ (" " ++ text)) =
      "Error:" ++ (" " ++ text) :=
    Markup.plain_styled_append rfl (by decide) (by simp) (List.all_eq_true.mp (by decide)) spaced
  rw [errorLine, ConsoleItem.ofMarkup, String.append_assoc, shown, ← String.append_assoc]
  rfl

end EditableTemplate
