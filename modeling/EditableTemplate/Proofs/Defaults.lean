import EditableTemplate.Proofs.Rendering
import EditableTemplate.Proofs.Text.Plain

/-!
# Rendering with defaults

Halves of surrogate pairs come from overrides. Without any, all values can be spelled
(`Document.spellable_of_resolve_none`), so a document that resolves comes to a text of characters
(`Document.exists_renderWith_none`).
-/

namespace EditableTemplate

/-- A spellable value is rendered without lone surrogates. -/
theorem Value.Spellable.isPlain_rendered {value : Value} (spellable : value.Spellable) :
    value.rendered.IsPlain := by
  cases spellable with
  | string text => exact CodePoints.isPlain_ofString text
  | number writable => exact ⟨_, rfl⟩
  | boolean truth => exact ⟨_, rfl⟩
  | color text valid => exact CodePoints.isPlain_ofString text

namespace Document

variable {source : String} {document : Document} {policy : Policy} {values : Bindings Value}

/-- Without overrides all values can be spelled. -/
theorem spellable_of_resolve_none (parsed : parse source = .ok document)
    (resolved : document.resolve policy .none = .ok values) {name : String} {value : Value}
    (found : values.find? name = some value) : value.Spellable := by
  obtain ⟨catalogue, collected, ran⟩ := Except.bind_eq_ok.mp resolved
  have holds := (Resolution.find?_eq_some_iff_hasValue ran).mp found
  refine holds.invariant Value.Spellable ?_ ?_ ?_
  · intro name entry given described default
    have member := Catalogue.mem_of_entryOf? described
    have spelled := (Catalogue.spellable_of_collect parsed collected member).default _ default
    cases spelled with
    | literal spellable => exact spellable
  · intro name datum declared value overridden
    cases overridden
  · intro name given declared value spellable fits
    exact spellable.retag? (Value.check_eq_ok_iff.mp fits)

/-- Where all values are plain, so is the output. -/
theorem isPlain_of_render
    (plain : ∀ name value, values.find? name = some value → value.rendered.IsPlain)
    {text : CodePoints} (rendered : document.render values = .ok text) : text.IsPlain := by
  obtain ⟨parts, ran, flat⟩ := Except.bind_eq_ok.mp rendered
  cases flat
  apply CodePoints.isPlain_flatten
  intro part member
  obtain ⟨node, _, gives⟩ := Except.exists_of_mem_mapM ran member
  cases node with
  | text content offset =>
      cases gives
      exact CodePoints.isPlain_ofString content
  | placeholder expression offset stop =>
      rw [Node.render] at gives
      split at gives
      · cases gives
        exact ⟨[], rfl⟩
      · rename_i name _
        rw [Bindings.renderName] at gives
        split at gives
        · cases gives
        · rename_i value found
          split at gives
          · cases gives
            exact plain name value found
          · cases gives

/-- A document is rendered with overrides where these resolve, and by the values they resolve to. -/
theorem renderWith_eq_ok {overrides : OverrideSource} {text : CodePoints} :
    document.renderWith policy overrides = .ok text ↔
      ∃ values, document.resolve policy overrides = .ok values ∧
        document.render values = .ok text := by
  rw [renderWith]
  cases resolved : document.resolve policy overrides with
  | error failure => simp
  | ok values => simp

/-- A document that resolves without overrides renders without them, as characters. -/
theorem exists_renderWith_none (parsed : parse source = .ok document)
    (resolved : document.resolve policy .none = .ok values) :
    ∃ text, document.renderWith policy .none = .ok text ∧ text.IsPlain := by
  obtain ⟨text, rendered, _⟩ := exists_render parsed OverrideSource.writable_none resolved
  refine ⟨text, renderWith_eq_ok.mpr ⟨values, resolved, rendered⟩, ?_⟩
  apply isPlain_of_render _ rendered
  intro name value found
  exact (spellable_of_resolve_none parsed resolved found).isPlain_rendered

end Document

end EditableTemplate
