import EditableTemplate.Proofs.Template.Document
import EditableTemplate.Proofs.Template.Node
import EditableTemplate.Proofs.Template.Spacing

/-!
# Documents with other blanks in their placeholders

A source is relaid if the blanks between the tokens of its placeholders are others, also next to the
braces (`Decomposition.Relaid`). No blank character is a brace, and no lexeme starts or ends with
one, so the source is cut at the same placeholders as before (`Decomposition.Relaid.exact`). Since
each placeholder is parsed as before, the document has the same pieces, or the first malformed
placeholder has the same fault at the same token (`Document.parse_relaid`).
-/

namespace EditableTemplate

/-! ## Braces -/

namespace Segmentation

variable {parts other : Segmentation} {mark : Char}

theorem not_mem_of_blank {gap : List Char} (brace : mark = '{' ∨ mark = '}')
    (blank : ∀ c ∈ gap, Text.isBlank c = true) : mark ∉ gap := by
  intro member
  have visible : Text.isBlank mark = false := by
    rcases brace with rfl | rfl <;> decide
  cases visible.symm.trans (blank mark member)

theorem unpaired_of_not_mem {text : List Char} (absent : mark ∉ text) : Unpaired mark text := by
  rw [unpaired_iff_not_within]
  rintro ⟨before, after, rfl⟩
  simp at absent

/-- Braces are paired only within slices. -/
theorem Exact.unpaired_text_iff (brace : mark = '{' ∨ mark = '}') (exact : parts.Exact) :
    Unpaired mark parts.text ↔ ∀ piece ∈ parts.pieces, Unpaired mark piece.1 := by
  induction parts with
  | last gap =>
      exact ⟨fun _ => List.forall_mem_nil _,
        fun _ => unpaired_of_not_mem (not_mem_of_blank brace exact)⟩
  | token gap slice lexeme rest ih =>
      obtain ⟨blank, taken, others⟩ := exact
      obtain ⟨_, last, _, ends, _, _, notOpen, notClose⟩ := taken.ends
      have noBrace := not_mem_of_blank brace blank
      rw [pieces, List.forall_mem_cons, ← ih others]
      constructor
      · intro unpaired
        constructor
        · exact List.IsChain.infix unpaired ⟨gap, rest.text, by simp [text]⟩
        · exact List.IsChain.infix unpaired ⟨gap ++ slice, [], by simp [text]⟩
      · rintro ⟨inSlice, onward⟩
        have apart : slice.getLast? ≠ some mark := by
          rw [ends]
          rintro ⟨⟩
          exact brace.elim notOpen notClose
        refine (unpaired_of_not_mem noBrace).append
          (inSlice.append onward fun marks => apart marks.1) fun marks => ?_
        exact noBrace (List.mem_of_getLast? marks.1)

/-- No text ends with a brace. -/
theorem Exact.getLast?_text_ne (brace : mark = '{' ∨ mark = '}') (exact : parts.Exact) :
    parts.text.getLast? ≠ some mark := by
  induction parts with
  | last gap => exact fun ends => not_mem_of_blank brace exact (List.mem_of_getLast? ends)
  | token gap slice lexeme rest ih =>
      obtain ⟨_, taken, others⟩ := exact
      obtain ⟨_, last, _, ends, _, _, notOpen, notClose⟩ := taken.ends
      rw [text, List.getLast?_append, List.getLast?_append, ends]
      cases behind : rest.text.getLast? with
      | none =>
          rintro ⟨⟩
          exact brace.elim notOpen notClose
      | some c =>
          rintro ⟨⟩
          exact ih others behind

/-- Other blanks between the tokens of a body make no pair of braces. -/
theorem Relaid.unpaired (relaid : parts.Relaid other) (exact : parts.Exact)
    (brace : mark = '{' ∨ mark = '}') (unpaired : Unpaired mark parts.text) :
    Unpaired mark other.text := by
  rw [exact.unpaired_text_iff brace] at unpaired
  rw [(relaid.exact exact).unpaired_text_iff brace, relaid.pieces_eq]
  exact unpaired

end Segmentation

/-! ## Spans -/

/-- The positions of the tokens of a span, and of the end of what it shows. -/
def Span.positions (span : Span) : List Int :=
  match TokenRow.tokenize span.text span.contentOffset with
  | .ok row => row.positions
  | .error _ => []

namespace Segmentation

variable {parts other : Segmentation}

/-- A placeholder shows its body without the gaps at both ends. -/
theorem Exact.text_ofBody (exact : parts.Exact) (some : parts.pieces ≠ []) (offset : Nat) :
    (Span.ofBody offset parts.text).text = String.ofList parts.trim.text :=
  congrArg String.ofList (exact.trim_text some)

/-- The positions of a body with tokens are those of the body without the blanks at its ends. -/
theorem Exact.positions_ofBody (exact : parts.Exact) (some : parts.pieces ≠ []) (offset : Nat) :
    (Span.ofBody offset parts.text).positions =
      (parts.trim.row (Span.ofBody offset parts.text).contentOffset).positions := by
  have trimmed := exact.relaid_trim.exact exact
  rw [Span.positions, exact.text_ofBody some, TokenRow.tokenize, String.toList_ofList,
    trimmed.readFrom]

/-- Placeholders with relaid bodies are parsed alike, wherever they stand. -/
theorem Relaid.corresponds_ofBody (relaid : parts.Relaid other) (exact : parts.Exact)
    (some : parts.pieces ≠ []) (offset offset' : Nat) :
    Failure.Corresponds (Span.ofBody offset parts.text).positions
      (Span.ofBody offset' other.text).positions
      (Expression.parse (Span.ofBody offset parts.text).text
        (Span.ofBody offset parts.text).contentOffset)
      (Expression.parse (Span.ofBody offset' other.text).text
        (Span.ofBody offset' other.text).contentOffset) := by
  have exact' := relaid.exact exact
  have some' : other.pieces ≠ [] := relaid.pieces_eq ▸ some
  have some'' : parts.trim.pieces ≠ [] := exact.relaid_trim.pieces_eq ▸ some
  rw [exact.positions_ofBody some, exact'.positions_ofBody some', exact.text_ofBody some,
    exact'.text_ofBody some']
  exact relaid.trim.corresponds (exact.relaid_trim.exact exact) some'' _ _

/-- Bodies with the same tokens have as many positions. -/
theorem Relaid.length_positions_ofBody (relaid : parts.Relaid other) (exact : parts.Exact)
    (some : parts.pieces ≠ []) (offset offset' : Nat) :
    (Span.ofBody offset parts.text).positions.length =
      (Span.ofBody offset' other.text).positions.length := by
  have exact' := relaid.exact exact
  have some' : other.pieces ≠ [] := relaid.pieces_eq ▸ some
  rw [exact.positions_ofBody some, exact'.positions_ofBody some', length_positions_row,
    length_positions_row, relaid.trim.pieces_eq]

end Segmentation

/-! ## Documents -/

/-- The part of a document that a node is, without its place. -/
def Node.piece : Node → Piece
  | .text content _ => .text content
  | .placeholder expression _ _ => .placeholder expression

/-- The part of a document that a literal text is; an empty text is none. -/
def Piece.ofText (text : List Char) : List Piece :=
  if text.isEmpty then [] else [.text (String.ofList text)]

/-- A literal text is the same piece at every offset. -/
theorem Node.map_piece_ofText (offset : Nat) (text : List Char) :
    (ofText offset text).map piece = Piece.ofText text := by
  cases text <;> rfl

/-- The parts of a document, without their places. -/
def Document.pieces (document : Document) : List Piece :=
  document.nodes.map Node.piece

namespace Decomposition

/-- The same literal texts, and placeholders whose bodies have the same tokens, one at least, with
other blanks between and around them. -/
inductive Relaid : Decomposition → Decomposition → Prop
  /-- There is no placeholder. -/
  | text (last : List Char) : Relaid (.text last) (.text last)
  /-- The body of the first placeholder is relaid. -/
  | placeholder (before : List Char) {parts other : Segmentation} {rest onward : Decomposition}
    (exact : parts.Exact) (some : parts.pieces ≠ []) (relaid : parts.Relaid other)
    (others : Relaid rest onward) :
    Relaid (.placeholder before parts.text rest) (.placeholder before other.text onward)

/-- The positions of the tokens of all placeholders of a source that starts at an offset, and of the
ends of what they show. -/
def positions (offset : Nat) : Decomposition → List Int
  | .text _ => []
  | .placeholder before body rest =>
    let span := Span.ofBody (offset + before.length) body
    span.positions ++ rest.positions span.stop

/-- A relaid source is cut at the same placeholders. -/
theorem Relaid.exact {first second : Decomposition} (relaid : first.Relaid second)
    (exact : first.Exact) : second.Exact := by
  induction relaid with
  | text last => exact exact
  | placeholder before inner some relaid others ih =>
      obtain ⟨opens, flat, closes, onward⟩ := exact
      refine ⟨opens, ?_, ?_, ih onward⟩
      · rw [← unpaired_iff_not_within] at flat ⊢
        exact relaid.unpaired inner (.inl rfl) flat
      · rw [firstPairAfter_iff_unpaired] at closes ⊢
        have unpaired : Unpaired '}' _ := List.IsChain.infix closes ⟨[], ['}'], rfl⟩
        have inside := relaid.unpaired inner (.inr rfl) unpaired
        exact inside.concat ((relaid.exact inner).getLast?_text_ne (.inr rfl))

/-- The pieces of a source that was taken apart and starts at an offset. -/
def readPieces (offset : Nat) (parts : Decomposition) : Except Failure (List Piece) :=
  ((parts.spans offset).mapM Node.ofSpan).map (List.map Node.piece)

theorem readPieces_text (offset : Nat) (last : List Char) :
    (text last).readPieces offset = .ok (Piece.ofText last) := by
  rw [readPieces, spans, Node.mapM_ofSpan_ofText]
  exact congrArg Except.ok (Node.map_piece_ofText offset last)

/-- A placeholder is read first, and then the rest of the source. -/
theorem readPieces_placeholder (offset : Nat) (before body : List Char) (rest : Decomposition) :
    (placeholder before body rest).readPieces offset = (do
      let expression ← Expression.parse (Span.ofBody (offset + before.length) body).text
        (Span.ofBody (offset + before.length) body).contentOffset
      (rest.readPieces (Span.ofBody (offset + before.length) body).stop).map
        (Piece.ofText before ++ .placeholder expression :: ·)) := by
  rw [readPieces, mapM_spans_placeholder]
  have node : Node.ofSpan (Span.ofBody (offset + before.length) body) =
      (Expression.parse (Span.ofBody (offset + before.length) body).text
        (Span.ofBody (offset + before.length) body).contentOffset).map fun expression =>
          .placeholder expression (offset + before.length)
            (Span.ofBody (offset + before.length) body).stop := rfl
  rw [node]
  cases Expression.parse (Span.ofBody (offset + before.length) body).text
      (Span.ofBody (offset + before.length) body).contentOffset with
  | error failure => rfl
  | ok expression =>
      simp only [readPieces]
      cases (rest.spans (Span.ofBody (offset + before.length) body).stop).mapM Node.ofSpan with
      | error failure => rfl
      | ok nodes =>
          have listed : (Node.ofText offset before ++ .placeholder expression
              (offset + before.length) (Span.ofBody (offset + before.length) body).stop ::
                nodes).map Node.piece =
              Piece.ofText before ++ .placeholder expression :: nodes.map Node.piece := by
            rw [List.map_append, Node.map_piece_ofText]
            rfl
          exact congrArg Except.ok listed

/-- Relaid sources are read alike. -/
theorem Relaid.corresponds {first second : Decomposition} (relaid : first.Relaid second)
    (offset offset' : Nat) :
    Failure.Corresponds (first.positions offset) (second.positions offset')
      (first.readPieces offset) (second.readPieces offset') := by
  induction relaid generalizing offset offset' with
  | text last =>
      rw [readPieces_text, readPieces_text]
      exact .ok _
  | placeholder before exact some relaid others ih =>
      rw [readPieces_placeholder, readPieces_placeholder]
      refine (relaid.corresponds_ofBody exact some _ _).bind
        (relaid.length_positions_ofBody exact some _ _) fun expression => ?_
      exact (ih _ _).map _

/-- Parsing an exact decomposition is reading its pieces. -/
theorem Exact.parse_source {parts : Decomposition} (exact : parts.Exact) :
    (Document.parse (String.ofList parts.source)).map Document.pieces = parts.readPieces 0 := by
  unfold Document.parse Span.scan
  rw [String.toList_ofList, exact.scanFrom_source, readPieces]
  change ((parts.spans 0).mapM Node.ofSpan >>= _).map _ = _
  cases (parts.spans 0).mapM Node.ofSpan with
  | error failure => rfl
  | ok nodes => rfl

end Decomposition

namespace Document

/-- **Layout does not matter.** A content that has tokens has one exact cut, and however it is
relaid the expression is the same, or the fault and the token at which it is found. So a relaid
template has the same pieces, or the same fault at the same token. -/
theorem parse_relaid :
    (∀ (content : String) (position : Int) (row : TokenRow),
      TokenRow.tokenize content position = .ok row →
      ∃ parts : Segmentation, parts.Exact ∧ parts.text = content.toList ∧
        row = parts.row position ∧
        ∀ (other : Segmentation) (position' : Int), parts.Relaid other →
          TokenRow.tokenize (String.ofList other.text) position' = .ok (other.row position') ∧
          (other.row position').lexemes = row.lexemes ∧
          (∀ expression, Expression.parse content position = .ok expression →
            Expression.parse (String.ofList other.text) position' = .ok expression) ∧
          (row.tokens ≠ [] →
            Failure.Corresponds row.positions (other.row position').positions
              (Expression.parse content position)
              (Expression.parse (String.ofList other.text) position'))) ∧
    ∀ first second : Decomposition, first.Exact → first.Relaid second →
      second.Exact ∧
      Failure.Corresponds (first.positions 0) (second.positions 0)
        ((parse (String.ofList first.source)).map pieces)
        ((parse (String.ofList second.source)).map pieces) := by
  constructor
  · intro content position row tokenized
    obtain ⟨parts, exact, same, rfl⟩ := TokenRow.exists_exact_of_tokenize tokenized
    obtain rfl : content = String.ofList parts.text := by rw [same, String.ofList_toList]
    refine ⟨parts, exact, same, rfl, ?_⟩
    intro other position' relaid
    have alike := fun some => relaid.corresponds exact some position position'
    refine ⟨(relaid.exact exact).tokenize_text position', ?_, ?_, ?_⟩
    · rw [Segmentation.lexemes_row, Segmentation.lexemes_row, relaid.pieces_eq]
    · intro expression parsed
      have corresponds := alike (exact.pieces_ne_nil_of_parse parsed)
      rw [parsed] at corresponds
      exact corresponds.eq_ok
    · intro some
      apply alike
      rintro none
      apply some
      rw [← List.length_eq_zero_iff, Segmentation.length_tokens_row, none, List.length_nil]
  · intro first second exact relaid
    rw [exact.parse_source, (relaid.exact exact).parse_source]
    exact ⟨relaid.exact exact, relaid.corresponds 0 0⟩

/-- The tokens of a declaration without any blanks. -/
def tightParts : Segmentation :=
  .token [] ['@'] (.mark .atSign) <| .token [] ['n'] (.name "n") <|
    .token [] [':'] (.mark .colon) <| .token [] ['s', 't', 'r', 'i', 'n', 'g'] (.name "string") <|
      .token [] ['='] (.mark .equals) <| .token [] [quoteMark, quoteMark] (.string "") <| .last []

/-- The same tokens with blanks of several sorts in every gap. -/
def looseParts : Segmentation :=
  .token ['\n'] ['@'] (.mark .atSign) <| .token [' '] ['n'] (.name "n") <|
    .token ['\t'] [':'] (.mark .colon) <|
      .token [' ', ' '] ['s', 't', 'r', 'i', 'n', 'g'] (.name "string") <|
        .token [Char.ofNat 0x3000] ['='] (.mark .equals) <|
          .token [Char.ofNat 0x85] [quoteMark, quoteMark] (.string "") <| .last [' ']

theorem exact_tightParts : tightParts.Exact := by
  have none : ∀ c ∈ ([] : List Char), Text.isBlank c = true := List.forall_mem_nil _
  refine ⟨none, ?_, none, ?_, none, ?_, none, ?_, none, ?_, none, ?_, none⟩
  · exact (Lexeme.read_eq_ok_iff.mp rfl).2
  · exact (Lexeme.read_eq_ok_iff.mp rfl).2
  · exact (Lexeme.read_eq_ok_iff.mp rfl).2
  · exact (Lexeme.read_eq_ok_iff.mp rfl).2
  · exact (Lexeme.read_eq_ok_iff.mp rfl).2
  · exact (Lexeme.read_eq_ok_iff.mp rfl).2

theorem relaid_tightParts : tightParts.Relaid looseParts := by
  have blank : ∀ {gap : List Char}, gap.all Text.isBlank = true →
      ∀ c ∈ gap, Text.isBlank c = true := List.all_eq_true.mp
  refine .token [] ['@'] (.mark .atSign) (blank (by decide)) ?_
  refine .token ['n'] (.name "n") (blank (by decide)) nofun ?_
  refine .token [':'] (.mark .colon) (blank (by decide)) nofun ?_
  refine .token ['s', 't', 'r', 'i', 'n', 'g'] (.name "string") (blank (by decide)) nofun ?_
  refine .token ['='] (.mark .equals) (blank (by decide)) nofun ?_
  refine .token [quoteMark, quoteMark] (.string "") (blank (by decide)) nofun ?_
  exact .last [] (blank (by decide))

/-- A template with the declaration, and with other blanks in it. -/
def declarationTemplate (parts : Segmentation) : Decomposition :=
  .placeholder [] parts.text (.text ['!'])

theorem exact_tightTemplate : (declarationTemplate tightParts).Exact := by
  have last : ¬['{', '{'] <:+: ['!'] := by decide
  have closed : Unpaired '}' (tightParts.text ++ ['}']) :=
    unpaired_iff_not_within.mpr (by decide)
  exact ⟨firstPairAfter_iff_unpaired.mpr (.singleton '{'), by decide,
    firstPairAfter_iff_unpaired.mpr closed, last⟩

theorem parse_looseParts :
    (TokenRow.tokenize (String.ofList tightParts.text) 3 = .ok (tightParts.row 3) ∧
      (tightParts.row 3).tokens ≠ [] ∧ tightParts.Relaid looseParts ∧
      Expression.parse (String.ofList tightParts.text) 3 =
        .ok (.declaration "n" .string (some (.literal (.string "")))) ∧
      Expression.parse (String.ofList looseParts.text) 0 =
        .ok (.declaration "n" .string (some (.literal (.string ""))))) ∧
    (declarationTemplate tightParts).Exact ∧
      (declarationTemplate tightParts).Relaid (declarationTemplate looseParts) ∧
      (declarationTemplate looseParts).Exact := by
  have relaid : (declarationTemplate tightParts).Relaid (declarationTemplate looseParts) :=
    .placeholder [] exact_tightParts nofun relaid_tightParts (.text ['!'])
  have tokenized := exact_tightParts.tokenize_text 3
  have parsed : Expression.parse (String.ofList tightParts.text) 3 =
      .ok (.declaration "n" .string (some (.literal (.string "")))) := by
    rw [exact_tightParts.parse_text]
    rfl
  obtain ⟨contents, templates⟩ := parse_relaid
  obtain ⟨parts, exact, same, _, spaced⟩ := contents _ 3 _ tokenized
  obtain rfl : parts = tightParts :=
    exact.eq_of_text exact_tightParts (same.trans String.toList_ofList)
  obtain ⟨_, _, keeps, _⟩ := spaced looseParts 0 relaid_tightParts
  exact ⟨⟨tokenized, nofun, relaid_tightParts, parsed, keeps _ parsed⟩, exact_tightTemplate, relaid,
    (templates _ _ exact_tightTemplate relaid).1⟩

end Document

end EditableTemplate
