import EditableTemplate.Proofs.Except
import EditableTemplate.Proofs.Template.Decomposition
import EditableTemplate.Template.Document

/-!
# The nodes of a parsed document

The nodes of a parsed document are those of the spans of its source, one for each in their order
(`Document.exists_spans_of_parse`). A literal text is that of its span, and a placeholder has the
place of its span and the expression that is parsed from what the span shows. The nodes of a source
that was taken apart are read placeholder by placeholder (`Decomposition.mapM_spans_placeholder`).
-/

namespace EditableTemplate

namespace Node

variable {span : Span}

/-- What a placeholder says, where it starts and where it ends. -/
def slice? : Node → Option (Expression × Nat × Nat)
  | .text _ _ => none
  | .placeholder expression offset stop => some (expression, offset, stop)

/-- A span is read as a literal text if it is one, with its text and offset. -/
theorem ofSpan_eq_text {content : String} {offset : Nat} :
    ofSpan span = .ok (.text content offset) ↔
      span.kind = .text ∧ span.text = content ∧ span.offset = offset := by
  unfold ofSpan
  cases span.kind with
  | text => simp
  | placeholder =>
      refine ⟨fun made => ?_, nofun⟩
      obtain ⟨_, _, ⟨⟩⟩ := Except.map_eq_ok.mp made

/-- A span is read as a placeholder if its content is parsed as the expression. -/
theorem ofSpan_eq_placeholder {expression : Expression} {offset stop : Nat} :
    ofSpan span = .ok (.placeholder expression offset stop) ↔
      span.kind = .placeholder ∧ Expression.parse span.text span.contentOffset = .ok expression ∧
        span.offset = offset ∧ span.stop = stop := by
  unfold ofSpan
  cases span.kind with
  | text => exact ⟨nofun, nofun⟩
  | placeholder => simp [Except.map_eq_ok]

/-- The node of a literal text at an offset; an empty text has none. -/
def ofText (offset : Nat) (text : List Char) : List Node :=
  if text.isEmpty then [] else [.text (String.ofList text) offset]

theorem mapM_ofSpan_ofText (offset : Nat) (text : List Char) :
    (Span.ofText offset text).mapM ofSpan = .ok (ofText offset text) := by
  cases text with
  | nil => rfl
  | cons c rest => rfl

end Node

/-- The nodes of a source are those of the text before its first placeholder, that placeholder, and
those of the rest. -/
theorem Decomposition.mapM_spans_placeholder (offset : Nat) (before body : List Char)
    (rest : Decomposition) :
    ((placeholder before body rest).spans offset).mapM Node.ofSpan = (do
      let node ← Node.ofSpan (Span.ofBody (offset + before.length) body)
      let nodes ← (rest.spans (Span.ofBody (offset + before.length) body).stop).mapM Node.ofSpan
      pure (Node.ofText offset before ++ node :: nodes)) := by
  rw [spans, List.mapM_append, Node.mapM_ofSpan_ofText, List.mapM_cons]
  cases Node.ofSpan (Span.ofBody (offset + before.length) body) with
  | error failure => rfl
  | ok node =>
      cases (rest.spans (Span.ofBody (offset + before.length) body).stop).mapM Node.ofSpan with
      | error failure => rfl
      | ok nodes => rfl

namespace Document

variable {source : String} {document : Document}

/-- The placeholders of a document: what they say, where they start and where they end. -/
def slices (document : Document) : List (Expression × Nat × Nat) :=
  document.nodes.filterMap Node.slice?

/-- A source that is parsed was scanned, and its spans are read as the nodes. -/
theorem exists_spans_of_parse (parsed : parse source = .ok document) :
    ∃ spans, Span.scan source = .ok spans ∧ spans.mapM Node.ofSpan = .ok document.nodes := by
  obtain ⟨spans, scanned, ran⟩ := Except.bind_eq_ok.mp parsed
  obtain ⟨nodes, read, ⟨⟩⟩ := Except.bind_eq_ok.mp ran
  exact ⟨spans, scanned, read⟩

/-- The placeholders of a document are those of its nodes. -/
theorem mem_placeholders_iff {expression : Expression} {offset : Nat} :
    (expression, offset) ∈ document.placeholders ↔
      ∃ stop, .placeholder expression offset stop ∈ document.nodes := by
  simp only [placeholders, List.mem_filterMap]
  constructor
  · rintro ⟨node, listed, shown⟩
    cases node with
    | text content start => cases shown
    | placeholder found start stop =>
        cases shown
        exact ⟨stop, listed⟩
  · rintro ⟨stop, listed⟩
    exact ⟨_, listed, rfl⟩

/-- Every expression of a parsed document was parsed. -/
theorem exists_parse_of_mem_placeholders (parsed : parse source = .ok document)
    {expression : Expression} {offset : Nat}
    (member : (expression, offset) ∈ document.placeholders) :
    ∃ content position, Expression.parse content position = .ok expression := by
  obtain ⟨spans, _, read⟩ := exists_spans_of_parse parsed
  obtain ⟨stop, listed⟩ := mem_placeholders_iff.mp member
  obtain ⟨span, _, made⟩ := Except.exists_of_mem_mapM read listed
  exact ⟨_, _, (Node.ofSpan_eq_placeholder.mp made).2.1⟩

end Document

end EditableTemplate
