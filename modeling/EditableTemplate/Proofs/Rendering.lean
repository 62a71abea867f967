import EditableTemplate.Proofs.Writable
import EditableTemplate.Rendering

/-!
# What rendering puts out

A document is rendered whenever its variables can be resolved. Every variable that a placeholder
emits has an entry in the catalogue, because it is introduced by that placeholder or its reference
was checked (`Catalogue.exists_entry_of_emitted?`), so it has a value, and that can be written. The
spans of a parsed source lie one after another, so the output is the source with every placeholder
replaced by what it emits (`Document.Replaced`) and nothing else changed
(`Document.renderWith_exact`).
-/

namespace EditableTemplate

/-! ## Placeholders and their variables -/

/-- What a placeholder emits: nothing for a declaration, else the value of its variable. -/
inductive Expression.Emits (values : Bindings Value) : Expression → CodePoints → Prop
  | declaration (name : String) (kind : Kind) (default : Option Default) :
      Emits values (.declaration name kind default) []
  | editable {name : String} (kind : Option Kind) (label : Option String)
      (default : Option Default) {value : Value} (found : values.find? name = some value) :
      Emits values (.editable name kind label default) value.rendered
  | reference {name : String} {value : Value} (found : values.find? name = some value) :
      Emits values (.reference name) value.rendered

/-- An expression emits one text. -/
theorem Expression.Emits.unique {values : Bindings Value} {expression : Expression}
    {first second : CodePoints} (left : expression.Emits values first)
    (right : expression.Emits values second) : first = second := by
  cases left with
  | declaration name kind default => cases right with | declaration => rfl
  | editable kind label default found =>
      cases right with
      | editable _ _ _ found' => rw [Option.some.inj (found.symm.trans found')]
  | reference found =>
      cases right with
      | reference found' => rw [Option.some.inj (found.symm.trans found')]

/-- A placeholder whose variable has a value that can be written is rendered as what it emits. -/
theorem Node.exists_render {values : Bindings Value} (expression : Expression) (offset stop : Nat)
    (known : ∀ name, expression.emitted? = some name →
      ∃ value, values.find? name = some value ∧ value.writable = true) :
    ∃ output, (Node.placeholder expression offset stop).render values = .ok output ∧
      expression.Emits values output := by
  cases expression with
  | declaration name kind default => exact ⟨[], rfl, .declaration name kind default⟩
  | editable name kind label default =>
      obtain ⟨value, found, writable⟩ := known name rfl
      refine ⟨value.rendered, ?_, .editable kind label default found⟩
      simp [Node.render, Expression.emitted?, Bindings.renderName, found, writable]
  | reference name =>
      obtain ⟨value, found, writable⟩ := known name rfl
      refine ⟨value.rendered, ?_, .reference found⟩
      simp [Node.render, Expression.emitted?, Bindings.renderName, found, writable]

/-- Every variable that a placeholder emits has an entry. -/
theorem Catalogue.exists_entry_of_emitted? {policy : MergePolicy} {document : Document}
    {catalogue : Catalogue} (collected : collect policy document = .ok catalogue)
    {expression : Expression} {offset : Nat}
    (member : (expression, offset) ∈ document.placeholders) {name : String}
    (emitted : expression.emitted? = some name) :
    ∃ entry, catalogue.entryOf? name = some entry := by
  have introduced : document.Introduces name := by
    cases expression with
    | declaration other kind default => cases emitted
    | editable other kind label default =>
        cases emitted
        exact ⟨_, List.mem_filterMap.mpr ⟨_, member, rfl⟩, rfl⟩
    | reference other =>
        cases emitted
        have listed : (name, offset) ∈ document.references :=
          List.mem_filterMap.mpr ⟨_, member, rfl⟩
        exact introduces_of_collect collected listed
  exact exists_entryOf?_iff.mpr ((introduces_iff_of_collect collected).mp introduced)

/-- Every datum of a source of overrides can be written. -/
def OverrideSource.Writable (source : OverrideSource) : Prop :=
  ∀ overrides, source.normalize = .ok overrides →
    ∀ name datum, overrides.find? name = some datum → datum.writable = true

theorem OverrideSource.writable_none : OverrideSource.none.Writable := by
  rintro _ ⟨⟩ name datum ⟨⟩

namespace Document

variable {source : String} {document : Document} {overrides : OverrideSource} {policy : Policy}
  {values : Bindings Value}

/-- Once the variables of a parsed document are resolved, each that a placeholder emits has a value,
which can be written. -/
theorem exists_value_of_emitted? (parsed : parse source = .ok document)
    (writable : overrides.Writable) (resolved : document.resolve policy overrides = .ok values)
    {expression : Expression} {offset : Nat}
    (member : (expression, offset) ∈ document.placeholders) {name : String}
    (emitted : expression.emitted? = some name) :
    ∃ value, values.find? name = some value ∧ value.writable = true := by
  obtain ⟨catalogue, collected, ran⟩ := Except.bind_eq_ok.mp resolved
  obtain ⟨supplied, normal, ran'⟩ := Except.bind_eq_ok.mp ran
  obtain ⟨entry, described⟩ := Catalogue.exists_entry_of_emitted? collected member emitted
  obtain ⟨value, holds⟩ := Resolution.exists_hasValue_of_resolveWith ran' described
  exact ⟨value, (Resolution.find?_eq_some_iff_hasValue ran').mpr holds,
    holds.writable (fun _ => Catalogue.spellable_of_collect parsed collected)
      (writable supplied normal)⟩

/-! ## The output and the source -/

/-- A source from a position on, with the slices of placeholders, one after another, replaced by
what these emit. -/
inductive Replaced (source : List Char) (values : Bindings Value) :
    Nat → List (Expression × Nat × Nat) → CodePoints → Prop
  | last {position : Nat} (within : position ≤ source.length) :
      Replaced source values position [] (.ofChars (source.drop position))
  | placeholder {position offset stop : Nat} {expression : Expression}
      {rest : List (Expression × Nat × Nat)} {text output : CodePoints}
      (after : position ≤ offset) (whole : offset < stop)
      (emits : expression.Emits values text) (onward : Replaced source values stop rest output) :
      Replaced source values position ((expression, offset, stop) :: rest)
        (.ofChars ((source.drop position).take (offset - position)) ++ text ++ output)

/-- Replacing the slices of a source gives one text. -/
theorem Replaced.unique {source : List Char} {position : Nat}
    {slices : List (Expression × Nat × Nat)} {first second : CodePoints}
    (left : Replaced source values position slices first)
    (right : Replaced source values position slices second) : first = second := by
  induction left generalizing second with
  | last => cases right with | last => rfl
  | placeholder _ _ emits _ ih =>
      cases right with
      | placeholder _ _ emits' onward => rw [emits.unique emits', ih onward]

/-- What stands before the first placeholder is kept. -/
theorem Replaced.before {source : List Char} {start position : Nat}
    {slices : List (Expression × Nat × Nat)} {output : CodePoints} (earlier : start ≤ position)
    (replaced : Replaced source values position slices output) :
    Replaced source values start slices
      (.ofChars ((source.drop start).take (position - start)) ++ output) := by
  have parts : (source.drop start).drop (position - start) = source.drop position := by
    rw [List.drop_drop, Nat.add_sub_cancel' earlier]
  cases replaced with
  | last within =>
      have whole : (source.drop start).take (position - start) ++ source.drop position =
          source.drop start := by
        rw [← parts, List.take_append_drop]
      rw [CodePoints.ofChars, CodePoints.ofChars, ← List.map_append, whole]
      exact .last (earlier.trans within)
  | @placeholder _ offset stop _ _ text output after whole emits onward =>
      have longer : offset - start = (position - start) + (offset - position) := by omega
      have kept : (source.drop start).take (offset - start) =
          (source.drop start).take (position - start) ++
            (source.drop position).take (offset - position) := by
        rw [longer, List.take_add, parts]
      have next := Replaced.placeholder (earlier.trans after) whole emits onward
      rw [kept] at next
      simpa [CodePoints.ofChars] using next

/-- Nodes that lie one after another are rendered as the part of the source that they occupy, with
every placeholder replaced. -/
theorem exists_replaced {source : List Char} {spans : List Span} {nodes : List Node}
    {start : Nat} (made : List.Forall₂ (fun span node => Node.ofSpan span = .ok node) spans nodes)
    (tiles : Span.Tiles start spans source.length) (shows : ∀ span ∈ spans, span.Shows source)
    (known : ∀ expression offset stop, .placeholder expression offset stop ∈ nodes →
      ∀ name, expression.emitted? = some name →
        ∃ value, values.find? name = some value ∧ value.writable = true) :
    ∃ parts, nodes.mapM (Node.render values) = .ok parts ∧
      Replaced source values start (nodes.filterMap Node.slice?) parts.flatten := by
  induction made generalizing start with
  | nil =>
      obtain rfl : start = source.length := tiles
      have last : Replaced source values source.length [] _ := .last (Nat.le_refl _)
      rw [List.drop_length] at last
      exact ⟨[], rfl, last⟩
  | @cons span node _ _ first _ ih =>
      obtain ⟨rfl, forward, tail⟩ := tiles
      obtain ⟨parts, ran, replaced⟩ := ih tail
        (fun other member => shows other (List.mem_cons_of_mem _ member))
        (fun expression offset stop member =>
          known expression offset stop (List.mem_cons_of_mem _ member))
      cases node with
      | text content offset =>
          obtain ⟨isText, rfl, rfl⟩ := Node.ofSpan_eq_text.mp first
          obtain ⟨shown, _⟩ := (shows span List.mem_cons_self).text isText
          refine ⟨CodePoints.ofString span.text :: parts,
            Except.mapM_eq_ok.mpr (.cons rfl (Except.mapM_eq_ok.mp ran)), ?_⟩
          -- a literal text goes before whatever the first placeholder after it has before it
          rw [List.flatten_cons, CodePoints.ofString, shown]
          exact replaced.before (Nat.le_of_lt forward)
      | placeholder expression offset stop =>
          obtain ⟨_, _, rfl, rfl⟩ := Node.ofSpan_eq_placeholder.mp first
          obtain ⟨output, rendered, emits⟩ := Node.exists_render expression span.offset span.stop
            (known expression span.offset span.stop List.mem_cons_self)
          refine ⟨output :: parts,
            Except.mapM_eq_ok.mpr (.cons rendered (Except.mapM_eq_ok.mp ran)), ?_⟩
          have next := Replaced.placeholder (Nat.le_refl span.offset) forward emits replaced
          rw [Nat.sub_self, List.take_zero] at next
          exact next

/-- Once its variables are resolved, a parsed document is rendered, with every placeholder
replaced. -/
theorem exists_render (parsed : parse source = .ok document) (writable : overrides.Writable)
    (resolved : document.resolve policy overrides = .ok values) :
    ∃ output, document.render values = .ok output ∧
      Replaced source.toList values 0 document.slices output := by
  obtain ⟨spans, scanned, made⟩ := exists_spans_of_parse parsed
  have known : ∀ expression offset stop, .placeholder expression offset stop ∈ document.nodes →
      ∀ name, expression.emitted? = some name →
        ∃ value, values.find? name = some value ∧ value.writable = true :=
    fun expression offset stop listed name => exists_value_of_emitted? parsed writable resolved
      (mem_placeholders_iff.mpr ⟨stop, listed⟩)
  obtain ⟨parts, ran, replaced⟩ := exists_replaced (Except.mapM_eq_ok.mp made)
    (Span.tiles_of_scan scanned) (Span.shows_of_scan scanned) known
  exact ⟨parts.flatten, Except.bind_eq_ok.mpr ⟨parts, ran, rfl⟩, replaced⟩

/-- **Rendering a parsed document.** With overrides that can be written, rendering fails exactly if
resolving does, and for the same cause. Otherwise the output is the source in which every
placeholder is replaced: a declaration by nothing, and another one by the value of its variable. -/
theorem renderWith_exact (parsed : parse source = .ok document) (writable : overrides.Writable)
    (policy : Policy) :
    (∀ fault, document.renderWith policy overrides = .error fault ↔
      ∃ failure, document.resolve policy overrides = .error failure ∧ fault = .failure failure) ∧
    ∀ output, document.renderWith policy overrides = .ok output ↔
      ∃ values, document.resolve policy overrides = .ok values ∧
        Replaced source.toList values 0 document.slices output := by
  unfold renderWith
  cases resolved : document.resolve policy overrides with
  | error failure =>
      refine ⟨fun fault => ?_, fun output => ⟨nofun, nofun⟩⟩
      constructor
      · rintro ⟨⟩
        exact ⟨failure, rfl, rfl⟩
      · rintro ⟨_, ⟨⟩, rfl⟩
        rfl
  | ok values =>
      obtain ⟨output, rendered, replaced⟩ := exists_render parsed writable resolved
      refine ⟨fun fault => ⟨?_, nofun⟩, fun other => ⟨?_, ?_⟩⟩
      · intro failed
        cases rendered.symm.trans failed
      · intro done
        obtain rfl := Except.ok.inj (rendered.symm.trans done)
        exact ⟨values, rfl, replaced⟩
      · rintro ⟨_, ⟨⟩, replaced'⟩
        rw [replaced'.unique replaced]
        exact rendered

/-- A source with every form of placeholder. -/
def badgeSource : String :=
  "<\x7b\x7b @size: number = 7 \x7d\x7d\x7b\x7b $size \x7d\x7d: " ++
    "\x7b\x7b name, defaultValue: \"?\" \x7d\x7d>"

/-- The document that it is. -/
def badgeDocument : Document :=
  ⟨badgeSource,
    [.text "<" 0,
      .placeholder (.declaration "size" .number (some (.literal (.number (.integer 7))))) 1 24,
      .placeholder (.reference "size") 24 35,
      .text ": " 35,
      .placeholder (.editable "name" none none (some (.literal (.string "?")))) 37 66,
      .text ">" 66]⟩

/-- An override of the second variable. -/
def badgeOverrides : OverrideSource :=
  .data (Bindings.ofList [("name", .text "you")])

/-- The values under this override. -/
def badgeValues : Bindings Value :=
  Bindings.ofList [("size", .number (.integer 7)), ("name", .string "you")]

theorem replaced_badgeSource :
    Replaced badgeSource.toList badgeValues 0 badgeDocument.slices
      (CodePoints.ofString "<7: you>") := by
  have size : badgeValues.find? "size" = some (.number (.integer 7)) := rfl
  have name : badgeValues.find? "name" = some (.string "you") := rfl
  have last : Replaced badgeSource.toList badgeValues 66 [] (CodePoints.ofString ">") :=
    .last (by decide)
  have third : Replaced badgeSource.toList badgeValues 35
      [(.editable "name" none none (some (.literal (.string "?"))), 37, 66)]
      (CodePoints.ofString ": you>") :=
    .placeholder (by decide) (by decide) (.editable _ _ _ name) last
  have second : Replaced badgeSource.toList badgeValues 24
      [(.reference "size", 24, 35),
        (.editable "name" none none (some (.literal (.string "?"))), 37, 66)]
      (CodePoints.ofString "7: you>") :=
    .placeholder (by decide) (by decide) (.reference size) third
  have first : Replaced badgeSource.toList badgeValues 0
      [(.declaration "size" .number (some (.literal (.number (.integer 7)))), 1, 24),
        (.reference "size", 24, 35),
        (.editable "name" none none (some (.literal (.string "?"))), 37, 66)]
      (CodePoints.ofString "<7: you>") :=
    .placeholder (by decide) (by decide) (.declaration ..) second
  exact first

theorem render_badgeSource :
    parse badgeSource = .ok badgeDocument ∧ badgeOverrides.Writable ∧
      badgeDocument.resolve ⟨.permissive, .error⟩ badgeOverrides = .ok badgeValues ∧
      badgeDocument.renderWith ⟨.permissive, .error⟩ badgeOverrides =
        .ok (CodePoints.ofString "<7: you>") := by
  have parsed : parse badgeSource = .ok badgeDocument := by with_unfolding_all rfl
  have writable : badgeOverrides.Writable := by
    rintro _ ⟨⟩ name datum found
    have listed : (name, datum) ∈ [("name", Datum.text "you")] :=
      Bindings.find?_eq_some_iff.mp found
    cases List.mem_singleton.mp listed
    rfl
  have resolved : badgeDocument.resolve ⟨.permissive, .error⟩ badgeOverrides =
      .ok badgeValues := by with_unfolding_all rfl
  exact ⟨parsed, writable, resolved,
    ((renderWith_exact parsed writable _).2 _).mpr ⟨badgeValues, resolved, replaced_badgeSource⟩⟩

end Document

end EditableTemplate
