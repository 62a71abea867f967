import EditableTemplate.Template.Grammar
import EditableTemplate.Template.Span

/-!
# Documents

A parsed template is its source and the nodes that make it up: literal text and placeholders, each
with its place in the source. `Document.parse` first cuts the whole source at its placeholders and
then reads them one after another, so a placeholder that is not closed or holds another one is
reported before any that is malformed inside.
-/

namespace EditableTemplate

/-- A part of a document. -/
inductive Node
  /-- Literal text, and the offset at which it starts. -/
  | text (content : String) (offset : Nat)
  /-- A placeholder, the offset of its opening braces, and the offset just past its closing ones. -/
  | placeholder (expression : Expression) (offset stop : Nat)
  deriving DecidableEq

/-- A parsed template. -/
structure Document where
  /-- The text it was parsed from. -/
  source : String
  /-- Its parts, in order. -/
  nodes : List Node
  deriving DecidableEq

/-- The node of a span. -/
def Node.ofSpan (span : Span) : Except Failure Node :=
  match span.kind with
  | .text => .ok (.text span.text span.offset)
  | .placeholder =>
    (Expression.parse span.text span.contentOffset).map fun expression =>
      .placeholder expression span.offset span.stop

namespace Document

/-- The document of a source. -/
def parse (source : String) : Except Failure Document := do
  let spans ← Span.scan source
  let nodes ← spans.mapM Node.ofSpan
  pure ⟨source, nodes⟩

/-- The placeholders of a document: what they say and where they start. -/
def placeholders (document : Document) : List (Expression × Nat) :=
  document.nodes.filterMap fun
    | .text _ _ => none
    | .placeholder expression offset _ => some (expression, offset)

end Document

end EditableTemplate
