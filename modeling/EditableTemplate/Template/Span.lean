import EditableTemplate.Template.Failure
import EditableTemplate.Text.Blank

/-!
# Spans of a template

The source of a template is cut at its placeholders: each runs from two opening braces to the first
two closing braces after them, and what lies between placeholders is literal text, kept as it is.
A placeholder must be closed and must not hold two opening braces. `Span.scan` cuts a source or says
where that fails; offsets count characters of the source.
-/

namespace EditableTemplate

/-- What lies before the first doubled occurrence of a character, and what lies after it. -/
def breakAtPair? (mark : Char) : List Char → Option (List Char × List Char)
  | [] => none
  | [_] => none
  | first :: second :: rest =>
    if first = mark ∧ second = mark then some ([], rest)
    else (breakAtPair? mark (second :: rest)).map fun (before, after) => (first :: before, after)

/-- The two parts and the doubled character between them make up the text. -/
theorem eq_of_breakAtPair? {mark : Char} {text before after : List Char}
    (broken : breakAtPair? mark text = some (before, after)) :
    text = before ++ mark :: mark :: after := by
  induction text generalizing before with
  | nil => simp [breakAtPair?] at broken
  | cons first rest ih =>
    cases rest with
    | nil => simp [breakAtPair?] at broken
    | cons second rest =>
      rw [breakAtPair?] at broken
      split at broken
      · rename_i marks
        obtain ⟨rfl, rfl⟩ : [] = before ∧ rest = after := by simpa using broken
        simp [marks.1, marks.2]
      · obtain ⟨⟨tail, after'⟩, found, parts⟩ := Option.map_eq_some_iff.1 broken
        obtain ⟨rfl, rfl⟩ : first :: tail = before ∧ after' = after := by simpa using parts
        rw [ih found]
        rfl

/-- What lies after the doubled character is shorter than the text. -/
theorem length_lt_of_breakAtPair? {mark : Char} {text before after : List Char}
    (broken : breakAtPair? mark text = some (before, after)) : after.length < text.length := by
  rw [eq_of_breakAtPair? broken]
  simp
  omega

/-- Whether a span is literal text or a placeholder. -/
inductive SpanKind
  /-- Text outside placeholders. -/
  | text
  /-- A placeholder, with its braces. -/
  | placeholder
  deriving DecidableEq, Repr

/-- A slice of the source of a template. -/
structure Span where
  /-- What the slice is. -/
  kind : SpanKind
  /-- The literal text, or the content of the placeholder without the blanks around it. -/
  text : String
  /-- The offset at which the slice starts. -/
  offset : Nat
  /-- The offset just past the slice. -/
  stop : Nat
  /-- The offset of the first character of `text`. -/
  contentOffset : Nat
  deriving DecidableEq, Repr

namespace Span

/-- The span of a literal text at an offset; an empty text has none. -/
def ofText (offset : Nat) (text : List Char) : List Span :=
  if text.isEmpty then []
  else [⟨.text, String.ofList text, offset, offset + text.length, offset⟩]

/-- The span of the placeholder at an offset with what stands between its braces. -/
def ofBody (offset : Nat) (body : List Char) : Span :=
  { kind := .placeholder
    text := String.ofList (Text.trim body)
    offset := offset
    stop := offset + 2 + body.length + 2
    contentOffset := offset + 2 + (body.takeWhile Text.isBlank).length }

/-- The spans of the rest of a source that starts at an offset. -/
def scanFrom (offset : Nat) (source : List Char) : Except Failure (List Span) :=
  match _opening : breakAtPair? '{' source with
  | none => .ok (ofText offset source)
  | some (before, inside) =>
    let start := offset + before.length
    match _closing : breakAtPair? '}' inside with
    | none => .error (.malformed .unterminatedPlaceholder start)
    | some (body, after) =>
      match breakAtPair? '{' body with
      | some (outer, _) => .error (.malformed .nestedPlaceholder ↑(start + 2 + outer.length))
      | none => do
        let span := ofBody start body
        let spans ← scanFrom span.stop after
        pure (ofText offset before ++ span :: spans)
termination_by source.length
decreasing_by
  have first := length_lt_of_breakAtPair? _opening
  have second := length_lt_of_breakAtPair? _closing
  omega

/-- The spans of a source, in order. -/
def scan (source : String) : Except Failure (List Span) :=
  scanFrom 0 source.toList

end Span

end EditableTemplate
