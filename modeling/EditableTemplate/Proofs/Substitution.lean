import EditableTemplate.Proofs.Concatenation

/-!
# Texts in the place of placeholders

A source that was taken apart can be put together again with a text in the place of each
placeholder (`Decomposition.fill`). That is what rendering does: with values for its variables, a
parsed document comes to its source with the texts that the placeholders emit
(`Document.exists_fill`). A text without two opening braces together is a document that comes to
itself (`Document.renderWith_literal`).
-/

namespace EditableTemplate

namespace Decomposition

/-- The literal texts of a source, in order. -/
def literals : Decomposition → List (List Char)
  | .text last => [last]
  | .placeholder before _ rest => before :: rest.literals

/-- The bodies of the placeholders of a source, in order. -/
def bodies : Decomposition → List (List Char)
  | .text _ => []
  | .placeholder _ body rest => body :: rest.bodies

/-- The literal texts of a source, with a text for each placeholder between them. -/
def weave : Decomposition → List CodePoints → List CodePoints
  | .text last, _ => [.ofChars last]
  | .placeholder before _ _, [] => [.ofChars before]
  | .placeholder before _ rest, emitted :: others =>
    .ofChars before :: emitted :: rest.weave others

/-- The source with a text in the place of each placeholder. -/
def fill (parts : Decomposition) (emitted : List CodePoints) : CodePoints :=
  (parts.weave emitted).flatten

theorem fill_text (last : List Char) (emitted : List CodePoints) :
    (text last).fill emitted = .ofChars last :=
  List.flatten_singleton

theorem fill_placeholder (before body : List Char) (rest : Decomposition) (first : CodePoints)
    (others : List CodePoints) :
    (placeholder before body rest).fill (first :: others) =
      .ofChars before ++ (first ++ rest.fill others) :=
  rfl

/-- What is put out is the literal texts and the texts put in, in some order. -/
theorem perm_weave {parts : Decomposition} {emitted : List CodePoints}
    (count : emitted.length = parts.bodies.length) :
    (parts.weave emitted).Perm (parts.literals.map .ofChars ++ emitted) := by
  induction parts generalizing emitted with
  | text last =>
      obtain rfl := List.length_eq_zero_iff.mp count
      exact .refl _
  | placeholder before body rest ih =>
      cases emitted with
      | nil => cases count
      | cons first others =>
          have later := ih (Nat.succ.inj count)
          exact ((later.cons first).trans List.perm_middle.symm).cons _

end Decomposition

/-- What the placeholders of a document say, in order. -/
def Document.expressions (document : Document) : List Expression :=
  document.placeholders.map Prod.fst

namespace Node

variable {values : Bindings Value}

/-- What a placeholder says. -/
def expression? : Node → Option Expression
  | .text _ _ => none
  | .placeholder expression _ _ => some expression

theorem renderAll_ofText (offset : Nat) (text : List Char) :
    renderAll values (ofText offset text) = .ok (.ofChars text) := by
  cases text with
  | nil => rfl
  | cons c rest =>
      change Except.ok (CodePoints.ofString (String.ofList (c :: rest)) ++ []) = _
      rw [List.append_nil, CodePoints.ofString, String.toList_ofList]

theorem filterMap_expression?_ofText (offset : Nat) (text : List Char) :
    (ofText offset text).filterMap expression? = [] := by
  cases text with
  | nil => rfl
  | cons c rest => rfl

/-- The nodes of a source are rendered as the source with a text in the place of each placeholder,
which is what the placeholder emits. The induction is on the placeholders of the source. -/
theorem exists_fill {parts : Decomposition} {offset : Nat} {nodes : List Node}
    (read : (parts.spans offset).mapM ofSpan = .ok nodes)
    (known : ∀ expression offset stop, .placeholder expression offset stop ∈ nodes →
      ∀ name, expression.emitted? = some name →
        ∃ value, values.find? name = some value ∧ value.writable = true) :
    ∃ texts, List.Forall₂ (Expression.Emits values) (nodes.filterMap expression?) texts ∧
      texts.length = parts.bodies.length ∧ renderAll values nodes = .ok (parts.fill texts) := by
  induction parts generalizing offset nodes with
  | text last =>
      obtain rfl := Except.ok.inj ((mapM_ofSpan_ofText offset last).symm.trans read)
      rw [filterMap_expression?_ofText, renderAll_ofText]
      exact ⟨[], .nil, rfl, congrArg Except.ok (Decomposition.fill_text last []).symm⟩
  | placeholder before body rest ih =>
      obtain ⟨expression, others, _, made, rfl⟩ := exists_placeholder_of_mapM read
      have member : ∀ node ∈ others, node ∈ ofText offset before ++ .placeholder expression
          (offset + before.length) (Span.ofBody (offset + before.length) body).stop :: others :=
        fun node inside => List.mem_append_right _ (List.mem_cons_of_mem _ inside)
      obtain ⟨texts, emits, count, later⟩ := ih made fun expression offset stop inside =>
        known expression offset stop (member _ inside)
      obtain ⟨text, rendered, first⟩ := exists_render expression (offset + before.length)
        (Span.ofBody (offset + before.length) body).stop
        (known expression _ _ (List.mem_append_right _ List.mem_cons_self))
      refine ⟨text :: texts, ?_, congrArg (· + 1) count, ?_⟩
      · rw [List.filterMap_append, filterMap_expression?_ofText]
        exact .cons first emits
      · rw [renderAll_append, renderAll_cons, renderAll_ofText, rendered, later,
          Decomposition.fill_placeholder]
        rfl

end Node

namespace Document

variable {source : String} {document : Document} {values : Bindings Value}

/-- The expressions of a document are those of its nodes. -/
theorem expressions_eq_filterMap (document : Document) :
    document.expressions = document.nodes.filterMap Node.expression? := by
  rw [expressions, placeholders, List.map_filterMap]
  refine List.filterMap_congr fun node _ => ?_
  cases node with
  | text content offset => rfl
  | placeholder expression offset stop => rfl

/-- What is parsed can be taken apart. -/
theorem exists_parts (parsed : parse source = .ok document) :
    ∃ parts : Decomposition, parts.Exact ∧ parts.source = source.toList := by
  obtain ⟨spans, scanned, _⟩ := exists_spans_of_parse parsed
  exact Decomposition.exists_exact_of_scanFrom scanned

/-- **Rendering fills a source.** With values for its variables, a parsed document is rendered as
its source with the texts that the placeholders emit in their places. -/
theorem exists_fill (parsed : parse source = .ok document) {parts : Decomposition}
    (exact : parts.Exact) (same : parts.source = source.toList)
    (covered : document.Covered values) :
    ∃ texts, List.Forall₂ (Expression.Emits values) document.expressions texts ∧
      texts.length = parts.bodies.length ∧ document.render values = .ok (parts.fill texts) := by
  obtain ⟨spans, scanned, made⟩ := exists_spans_of_parse parsed
  have cut := exact.scanFrom_source 0
  rw [same] at cut
  obtain rfl := Except.ok.inj (scanned.symm.trans cut)
  rw [expressions_eq_filterMap]
  exact Node.exists_fill made fun expression offset stop listed =>
    covered (expression, offset) (mem_placeholders_iff.mpr ⟨stop, listed⟩)

/-! ## Documents without placeholders -/

/-- The document that a literal text is. -/
def literal (text : List Char) : Document :=
  ⟨String.ofList text, Node.ofText 0 text⟩

/-- A source without an opening is parsed as literal text. -/
theorem parse_literal {text : List Char} (flat : ¬['{', '{'] <:+: text) :
    parse (String.ofList text) = .ok (literal text) := by
  rw [parse_eq_readFrom, String.toList_ofList,
    Node.readFrom_text (unpaired_iff_not_within.mpr flat)]
  rfl

theorem placeholders_literal (text : List Char) : (literal text).placeholders = [] := by
  cases text with
  | nil => rfl
  | cons c rest => rfl

/-- Literal text has an empty catalogue. -/
theorem collect_literal (policy : MergePolicy) (text : List Char) :
    Catalogue.collect policy (literal text) = .ok [] := by
  have gathered : Draft.gather policy (literal text).mentions = .ok Bindings.empty := by
    rw [mentions, placeholders_literal]
    rfl
  have known : Draft.checkReferences (literal text) Bindings.empty = .ok () := by
    rw [Draft.checkReferences, references, placeholders_literal]
    rfl
  have ordered : (Draft.graph Bindings.empty).schedule = .ok [] := by with_unfolding_all rfl
  exact Except.bind_eq_ok.mpr ⟨_, gathered, Except.bind_eq_ok.mpr
    ⟨_, known, Except.bind_eq_ok.mpr ⟨_, ordered, rfl⟩⟩⟩

/-- Literal text is rendered as it is, without overrides. -/
theorem renderWith_literal (policy : Policy) (text : List Char) :
    (literal text).renderWith policy .none = .ok (.ofChars text) := by
  have resolved : (literal text).resolve policy .none = .ok Bindings.empty := by
    rw [resolve, collect_literal]
    cases policy.unknown <;> with_unfolding_all rfl
  rw [renderWith, resolved]
  exact Node.renderAll_ofText 0 text

end Document

end EditableTemplate
