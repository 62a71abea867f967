import EditableTemplate.Proofs.Template.Grammar
import EditableTemplate.Template.Document

/-!
# Writing documents

A document is written piece by piece, each placeholder between braces and blanks. Literal texts must
be told apart: none is empty, holds two opening braces in a row, follows another, or ends with an
opening brace before a placeholder. Then what was written is parsed to the same pieces at the places
where they were written (`Document.parse_written`), whatever texts are quoted in them.
-/

namespace EditableTemplate

/-- A part of a document without its place. -/
inductive Piece
  /-- Literal text. -/
  | text (content : String)
  /-- A placeholder. -/
  | placeholder (expression : Expression)

namespace Piece

/-- A piece as it is written. -/
def form : Piece → List Char
  | .text content => content.toList
  | .placeholder expression => ['{', '{', ' '] ++ expression.form ++ [' ', '}', '}']

/-- The part of a document that a piece is at an offset. -/
def node (offset : Nat) (piece : Piece) : Node :=
  match piece with
  | .text content => .text content offset
  | .placeholder expression => .placeholder expression offset (offset + piece.form.length)

/-- The parts of a document that pieces are, one after another, the first at an offset. -/
def nodes (offset : Nat) : List Piece → List Node
  | [] => []
  | piece :: rest => piece.node offset :: nodes (offset + piece.form.length) rest

/-- Pieces as they are written. -/
def written (pieces : List Piece) : String :=
  String.ofList (pieces.flatMap form)

/-- A piece that can be written. -/
def HasForm : Piece → Prop
  | .text content => content ≠ "" ∧ ¬['{', '{'] <:+: content.toList
  | .placeholder expression => expression.HasForm

/-- Two pieces can stand next to each other. -/
def MayPrecede : Piece → Piece → Prop
  | .text _, .text _ => False
  | .text content, .placeholder _ => content.toList.getLast? ≠ some '{'
  | .placeholder _, _ => True

/-- The span of a piece at an offset. -/
def span (offset : Nat) : Piece → Span
  | .text content => ⟨.text, content, offset, offset + content.toList.length, offset⟩
  | .placeholder expression => Span.ofBody offset (' ' :: (expression.form ++ [' ']))

/-- The spans of pieces, one after another, the first at an offset. -/
def spans (offset : Nat) : List Piece → List Span
  | [] => []
  | piece :: rest => piece.span offset :: spans (offset + piece.form.length) rest

theorem ofText_text {content : String} (nonempty : content ≠ "") (offset : Nat) :
    Span.ofText offset content.toList = [(text content).span offset] := by
  have some : content.toList.isEmpty = false := by
    rw [List.isEmpty_eq_false_iff]
    exact fun none => nonempty (String.toList_eq_nil_iff.mp none)
  rw [Span.ofText, some, String.ofList_toList]
  rfl

theorem stop_span (expression : Expression) (offset : Nat) :
    ((placeholder expression).span offset).stop =
      offset + (placeholder expression).form.length := by
  simp only [span, Span.ofBody, form, List.length_cons, List.length_append, List.length_nil]
  omega

/-- A placeholder is cut out, and so is the text before it. -/
theorem scanFrom_placeholder {before after : List Char} {offset : Nat} {spans : List Span}
    {expression : Expression} (text : Unpaired '{' (before ++ ['{'])) (hasForm : expression.HasForm)
    (scanned : Span.scanFrom (offset + before.length + (placeholder expression).form.length) after =
      .ok spans) :
    Span.scanFrom offset (before ++ ((placeholder expression).form ++ after)) =
      .ok (Span.ofText offset before ++
        (placeholder expression).span (offset + before.length) :: spans) := by
  have shielded : Shielded expression.form :=
    shielded_row (Expression.legible_lexemes hasForm).written
  obtain ⟨flat, closed⟩ := shielded.between_blanks
  rw [← stop_span] at scanned
  have cut := Span.scanFrom_body text flat closed scanned
  have same : before ++ ((placeholder expression).form ++ after) =
      before ++ '{' :: '{' :: (' ' :: (expression.form ++ [' ']) ++ '}' :: '}' :: after) := by
    simp [form]
  rw [same]
  exact cut

/-- **Cutting what was written.** The spans are those of the pieces. -/
theorem scanFrom_form : (pieces : List Piece) → (offset : Nat) →
    (∀ piece ∈ pieces, piece.HasForm) → pieces.IsChain MayPrecede →
      Span.scanFrom offset (pieces.flatMap form) = .ok (spans offset pieces)
  | [], offset, _, _ => Span.scanFrom_text .nil offset
  | .placeholder expression :: rest, offset, hasForm, parted => by
      obtain ⟨first, others⟩ := List.forall_mem_cons.mp hasForm
      have opening : Unpaired '{' ([] ++ ['{']) := .singleton '{'
      have tail := scanFrom_form rest (offset + (placeholder expression).form.length) others
        (List.IsChain.tail parted)
      exact scanFrom_placeholder opening first tail
  | [.text content], offset, hasForm, _ => by
      obtain ⟨nonempty, absent⟩ := hasForm (.text content) (List.mem_cons_self ..)
      rw [List.flatMap_singleton]
      have scanned := Span.scanFrom_text (unpaired_iff_not_within.mpr absent) offset
      rw [ofText_text nonempty] at scanned
      exact scanned
  -- a text is cut out together with the placeholder after it, so two pieces go at a time
  | .text content :: .placeholder expression :: rest, offset, hasForm, parted => by
      obtain ⟨⟨nonempty, absent⟩, others⟩ := List.forall_mem_cons.mp hasForm
      obtain ⟨second, others⟩ := List.forall_mem_cons.mp others
      obtain ⟨last, parted⟩ := List.isChain_cons_cons.mp parted
      have opening := (unpaired_iff_not_within.mpr absent).concat last
      have tail := scanFrom_form rest
        (offset + content.toList.length + (placeholder expression).form.length) others
        (List.IsChain.tail parted)
      have scanned := scanFrom_placeholder opening second tail
      rw [ofText_text nonempty] at scanned
      exact scanned
  | .text _ :: .text _ :: _, _, _, parted =>
      (List.isChain_cons_cons.mp parted).1.elim

/-- The span of a piece is read as the node that the piece is. -/
theorem ofSpan_span {piece : Piece} (hasForm : piece.HasForm) (offset : Nat) :
    Node.ofSpan (piece.span offset) = .ok (piece.node offset) := by
  cases piece with
  | text content => rfl
  | placeholder expression =>
      have tight := (Expression.legible_lexemes hasForm).tight
      have trimmed : Text.trim (' ' :: (expression.form ++ [' '])) = expression.form :=
        Text.trim_between_blanks tight
      have read := Expression.parse_form hasForm
        ((placeholder expression).span offset).contentOffset
      rw [node, ← stop_span]
      change (Expression.parse (String.ofList (Text.trim _)) _).map _ = _
      rw [trimmed, read]
      rfl

/-- The spans of pieces are read as the nodes that the pieces are. -/
theorem mapM_ofSpan_spans {pieces : List Piece} (hasForm : ∀ piece ∈ pieces, piece.HasForm)
    (offset : Nat) : (spans offset pieces).mapM Node.ofSpan = .ok (nodes offset pieces) := by
  induction pieces generalizing offset with
  | nil => rfl
  | cons piece rest ih =>
      obtain ⟨first, others⟩ := List.forall_mem_cons.mp hasForm
      rw [spans, List.mapM_cons, ofSpan_span first, ih others]
      rfl

end Piece

namespace Document

/-- What is written for pieces is parsed as these pieces, one after another. -/
theorem parse_written {pieces : List Piece} (hasForm : ∀ piece ∈ pieces, piece.HasForm)
    (parted : pieces.IsChain Piece.MayPrecede) :
    parse (Piece.written pieces) = .ok ⟨Piece.written pieces, Piece.nodes 0 pieces⟩ := by
  have scanned : Span.scan (Piece.written pieces) = .ok (Piece.spans 0 pieces) := by
    rw [Span.scan, Piece.written, String.toList_ofList]
    exact Piece.scanFrom_form pieces 0 hasForm parted
  rw [parse, scanned]
  change Except.bind ((Piece.spans 0 pieces).mapM Node.ofSpan) _ = _
  rw [Piece.mapM_ofSpan_spans hasForm]
  rfl

/-- **Documents are read back.** What was written is parsed to the pieces at the places where they
were written; in particular every string can be written as the default of a variable. -/
theorem parse_written_pieces :
    (∀ pieces : List Piece, (∀ piece ∈ pieces, piece.HasForm) →
      pieces.IsChain Piece.MayPrecede →
        parse (Piece.written pieces) = .ok ⟨Piece.written pieces, Piece.nodes 0 pieces⟩) ∧
    ∀ (name : String) (kind : Kind) (text : String), IsName name →
      let expression := Expression.declaration name kind (some (.literal (.string text)))
      let piece := Piece.placeholder expression
      parse (Piece.written [piece]) =
        .ok ⟨Piece.written [piece], [.placeholder expression 0 piece.form.length]⟩ := by
  refine ⟨fun _ => parse_written, ?_⟩
  intro name kind text isName expression piece
  have hasForm : piece.HasForm := by
    refine ⟨isName, ?_⟩
    intro given same
    obtain rfl := Option.some.inj same
    exact Default.hasForm_string text
  have parsed := parse_written (List.forall_mem_singleton.mpr hasForm) (.singleton piece)
  rw [parsed, Piece.nodes, Piece.nodes, Piece.node, Nat.zero_add]

/-- A text of braces, a quote, a backslash and a newline. -/
def thornyText : String :=
  "\x7b\x7b\"\\\n\x7d\x7d"

/-- Pieces with braces wherever they may stand. -/
def thornyPieces : List Piece :=
  [.text "\x7b \x7d\x7d ",
    .placeholder (.declaration "t-1" .string (some (.literal (.string thornyText)))),
    .text "\x7d",
    .placeholder (.editable "_a" (some .color) (some "\x7d\x7d") (some (.reference "t-1"))),
    .placeholder (.reference "t-1")]

/-- Those pieces as they are written. -/
def thornySource : String :=
  "\x7b \x7d\x7d \x7b\x7b @t-1: string = \"\\\x7b\\\x7b\\\"\\\\\n\\\x7d\\\x7d\" \x7d\x7d\x7d" ++
    "\x7b\x7b _a: color, friendlyName: \"\\\x7d\\\x7d\", defaultValue: $t-1 \x7d\x7d" ++
    "\x7b\x7b $t-1 \x7d\x7d"

theorem parse_thornySource :
    (∀ piece ∈ thornyPieces, piece.HasForm) ∧ thornyPieces.IsChain Piece.MayPrecede ∧
      IsName "t-1" ∧
      parse thornySource = .ok ⟨thornySource,
        [.text "\x7b \x7d\x7d " 0,
          .placeholder (.declaration "t-1" .string (some (.literal (.string thornyText)))) 5 41,
          .text "\x7d" 41,
          .placeholder (.editable "_a" (some .color) (some "\x7d\x7d") (some (.reference "t-1")))
            42 99,
          .placeholder (.reference "t-1") 99 109]⟩ := by
  have isName : IsName "t-1" := ⟨⟨_, _, rfl, by decide, by decide⟩, by decide, by decide⟩
  have other : IsName "_a" := ⟨⟨_, _, rfl, by decide, by decide⟩, by decide, by decide⟩
  have characters : "\x7b \x7d\x7d ".toList = ['{', ' ', '}', '}', ' '] := by decide
  have first : Piece.HasForm (.text "\x7b \x7d\x7d ") := by
    refine ⟨by decide, ?_⟩
    rw [characters]
    decide
  have second : Piece.HasForm (.text "\x7d") := ⟨by decide, by decide⟩
  have hasForm : ∀ piece ∈ thornyPieces, piece.HasForm := by
    refine List.forall_mem_cons.mpr ⟨first, List.forall_mem_cons.mpr ⟨⟨isName, ?_⟩, ?_⟩⟩
    · intro given same
      obtain rfl := Option.some.inj same
      exact Default.hasForm_string thornyText
    refine List.forall_mem_cons.mpr ⟨second, List.forall_mem_cons.mpr ⟨⟨other, ?_⟩, ?_⟩⟩
    · intro given same
      obtain rfl := Option.some.inj same
      exact isName
    · exact List.forall_mem_singleton.mpr isName
  have parted : thornyPieces.IsChain Piece.MayPrecede := by
    have first : "\x7b \x7d\x7d ".toList.getLast? ≠ some '{' := by
      rw [characters]
      decide
    have second : "\x7d".toList.getLast? ≠ some '{' := by decide
    exact .cons_cons first (.cons_cons trivial (.cons_cons second
      (.cons_cons trivial (.singleton _))))
  have source : Piece.written thornyPieces = thornySource := by decide
  have places : Piece.nodes 0 thornyPieces =
      [.text "\x7b \x7d\x7d " 0,
        .placeholder (.declaration "t-1" .string (some (.literal (.string thornyText)))) 5 41,
        .text "\x7d" 41,
        .placeholder (.editable "_a" (some .color) (some "\x7d\x7d") (some (.reference "t-1")))
          42 99,
        .placeholder (.reference "t-1") 99 109] := by decide
  have parsed := parse_written_pieces.1 thornyPieces hasForm parted
  rw [source, places] at parsed
  exact ⟨hasForm, parted, isName, parsed⟩

end Document

end EditableTemplate
