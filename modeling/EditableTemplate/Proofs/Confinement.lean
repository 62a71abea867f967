import EditableTemplate.Proofs.Color
import EditableTemplate.Proofs.Rendering
import EditableTemplate.Proofs.Resolution.Soundness

/-!
# Colors stay where they are put

Rendering escapes nothing, so what is put in the place of a color must be harmless by itself: a
color in one of its forms, with no blank characters around it and none that ends a declaration or an
attribute (`Color.Confined`). A value comes to be a color by being judged as the text of one, be it
a literal default, an override or the value of a variable that is referred to, and retagging changes
no text on the way. Only typed overrides skip the judgement, since those made one at a time
have passed it already (`OverrideSource.Vetted`).
-/

namespace EditableTemplate

/-- The text of a color that can not end what it is put into. -/
structure Color.Confined (text : List Char) : Prop where
  valid : Color.isValid text = true
  tight : Text.Tight text
  inert : Color.Inert text

/-- A color that is made of a text is confined. -/
theorem Color.confined_of_ofText? {given color : CodePoints} (found : ofText? given = some color) :
    ∃ text, color = CodePoints.ofChars text ∧ Confined text := by
  obtain ⟨text, rfl, valid, trimmed⟩ := exists_chars_of_ofText? found
  have ends := Text.trimmed_trim text
  have inert := inert_of_isValid valid
  rw [trimmed] at ends inert
  have nonempty : text ≠ [] := by
    rintro rfl
    exact absurd valid (by decide +kernel)
  refine ⟨text, rfl, valid, ?_, inert⟩
  exact ⟨⟨_, List.head?_eq_some_head nonempty, ends.first _ (List.head?_eq_some_head nonempty)⟩,
    ⟨_, List.getLast?_eq_some_getLast nonempty,
      ends.last _ (List.getLast?_eq_some_getLast nonempty)⟩⟩

/-- If a value is a color, its text is confined. -/
def Value.Confined (value : Value) : Prop :=
  ∀ color, value = .color color → ∃ text, color = CodePoints.ofChars text ∧ Color.Confined text

/-- A confined value stays confined under another kind. -/
theorem Value.Confined.retag? {value result : Value} {declared : Kind} (confined : value.Confined)
    (retagged : value.retag? declared = some result) : result.Confined := by
  rintro color rfl
  obtain rfl := kind_of_retag? retagged
  cases value with
  | string given =>
      obtain ⟨_, found, ⟨⟩⟩ := Option.map_eq_some_iff.mp retagged
      exact Color.confined_of_ofText? found
  | color given =>
      cases retagged
      exact confined color rfl
  | number amount => cases retagged
  | boolean truth => cases retagged

/-- A confined value stays confined through a check. -/
theorem Value.Confined.check {name : String} {value result : Value} {declared : Kind}
    (confined : value.Confined) (checked : value.check name declared = .ok result) :
    result.Confined :=
  confined.retag? (check_eq_ok_iff.mp checked)

/-- A spellable value is confined. -/
theorem Value.Spellable.confined {value : Value} (spellable : value.Spellable) :
    value.Confined := by
  rintro color rfl
  cases spellable with
  | color text valid => exact Color.confined_of_ofText? valid

/-! ## Overrides -/

/-- If a datum is a color already, it was made as a typed override. -/
def Datum.Vetted (datum : Datum) : Prop :=
  ∀ color, datum = .typed (.color color) →
    ∃ given, Parameters.value .color (.text given) = .ok (.color color)

/-- Every color that a source of overrides has was made as a typed override. -/
def OverrideSource.Vetted (source : OverrideSource) : Prop :=
  ∀ overrides, source.normalize = .ok overrides →
    ∀ name datum, overrides.find? name = some datum → datum.Vetted

/-- A vetted datum wraps to a confined value. -/
theorem Datum.Vetted.wrap {datum : Datum} {value : Value} (vetted : datum.Vetted)
    (wrapped : datum.wrap = .ok value) : value.Confined := by
  rintro color rfl
  cases datum with
  | typed value =>
      cases wrapped
      obtain ⟨given, made⟩ := vetted color rfl
      cases found : Color.ofText? given with
      | none => simp [Parameters.value, found] at made
      | some text =>
          obtain rfl : text = color := by simpa [Parameters.value, found] using made
          exact Color.confined_of_ofText? found
  | real number => cases number <;> cases wrapped
  | _ => cases wrapped

/-- A vetted datum that passes a check gives a confined value. -/
theorem Datum.Vetted.check {name : String} {datum : Datum} {declared : Kind} {result : Value}
    (vetted : datum.Vetted) (checked : datum.check name declared = .ok result) :
    result.Confined := by
  unfold Datum.check at checked
  split at checked
  · exact (vetted.wrap ‹_›).check checked
  · cases checked

namespace Parameters

/-- A value that is made as a typed override is vetted. -/
theorem vetted_of_value {kind : Kind} {datum : Datum} {value : Value}
    (made : Parameters.value kind datum = .ok value) : (Datum.typed value).Vetted := by
  rintro color ⟨⟩
  cases kind with
  | color =>
      cases datum with
      | text given => exact ⟨given, made⟩
      | _ => cases made
  | _ => cases datum with
    | real number => cases number <;> cases made
    | _ => cases made

/-- The values of typed overrides are vetted. -/
def Vetted (parameters : Parameters) : Prop :=
  ∀ name value, parameters.values.find? name = some value → (Datum.typed value).Vetted

/-- Setting a typed override keeps the parameters vetted. -/
theorem Vetted.set {parameters result : Parameters} {kind : Kind} {name : String} {datum : Datum}
    (vetted : parameters.Vetted) (made : parameters.set kind name datum = .ok result) :
    result.Vetted := by
  obtain ⟨value, ran, rfl⟩ := Except.map_eq_ok.mp made
  intro other found bound
  rw [Bindings.find?_put] at bound
  split at bound
  · obtain rfl := Option.some.inj bound
    exact vetted_of_value ran
  · exact vetted other found bound

theorem vetted_empty : empty.Vetted :=
  nofun

/-- Typed overrides that are made one at a time are vetted: every setting keeps them so. -/
theorem vetted_of_build {settings : List (Kind × String × Datum)} {parameters : Parameters}
    (built : build settings = .ok parameters) : parameters.Vetted := by
  refine Except.foldlM_invariant ?_ vetted_empty built
  rintro parameters ⟨kind, name, datum⟩ next vetted made
  exact vetted.set made

end Parameters

theorem OverrideSource.vetted_parameters {parameters : Parameters} (vetted : parameters.Vetted) :
    (OverrideSource.parameters parameters).Vetted := by
  rintro _ ⟨⟩ name datum found
  rw [Bindings.find?_map] at found
  obtain ⟨value, bound, rfl⟩ := Option.map_eq_some_iff.mp found
  exact vetted name value bound

/-- The colors among the values of variables are confined. -/
theorem Resolution.HasValue.confined {catalogue : Catalogue} {overrides : Bindings Datum}
    (spellable : ∀ entry ∈ catalogue, entry.Spellable)
    (vetted : ∀ name datum, overrides.find? name = some datum → datum.Vetted) {name : String}
    {value : Value} (holds : HasValue catalogue overrides name value) : value.Confined := by
  refine holds.invariant Value.Confined ?_ ?_ ?_
  · intro name entry given described default
    have member := Catalogue.mem_of_entryOf? described
    cases (spellable entry member).default _ default with
    | literal spellable => exact spellable.confined
  · exact fun name datum _ _ overridden fits => (vetted name datum overridden).check fits
  · exact fun _ _ _ _ confined fits => confined.check fits

/-- Every variable of kind color has a confined color as its value, and that is what a placeholder
puts out that emits the variable. -/
structure Catalogue.ConfinesColors (catalogue : Catalogue) (values : Bindings Value) : Prop where
  value : ∀ entry ∈ catalogue, entry.kind = .color → ∃ text, Color.Confined text ∧
    values.find? entry.name = some (.color (CodePoints.ofChars text))
  output : ∀ entry ∈ catalogue, entry.kind = .color → ∀ expression offset stop,
    expression.emitted? = some entry.name → ∃ text, Color.Confined text ∧
      (Node.placeholder expression offset stop).render values = .ok (CodePoints.ofChars text)

namespace Document

variable {source : String} {document : Document} {overrides : OverrideSource} {policy : Policy}
  {values : Bindings Value}

/-- **Colors are confined.** However a variable of a parsed document comes to be a color, its value
is accepted as one, neither starts nor ends with a blank character, and holds no character that can
end the declaration or the attribute that a placeholder puts it into. -/
theorem confinesColors_of_resolve (parsed : parse source = .ok document)
    (vetted : overrides.Vetted) (resolved : document.resolve policy overrides = .ok values) :
    ∃ catalogue, Catalogue.collect policy.merge document = .ok catalogue ∧
      catalogue.ConfinesColors values := by
  obtain ⟨catalogue, collected, ran⟩ := Except.bind_eq_ok.mp resolved
  obtain ⟨supplied, normal, ran'⟩ := Except.bind_eq_ok.mp ran
  have colors : ∀ entry ∈ catalogue, entry.kind = .color → ∃ text, Color.Confined text ∧
      values.find? entry.name = some (.color (CodePoints.ofChars text)) := by
    intro entry member color
    have described :=
      Catalogue.entryOf?_name_of_mem (Catalogue.sound_of_collect collected).distinct member
    obtain ⟨value, holds⟩ := Resolution.exists_hasValue_of_resolveWith ran' described
    have confined := holds.confined (fun _ => Catalogue.spellable_of_collect parsed collected)
      (vetted supplied normal)
    have kind := holds.kind_eq described
    rw [color] at kind
    cases value with
    | color given =>
        obtain ⟨text, rfl, safe⟩ := confined given rfl
        exact ⟨text, safe, (Resolution.find?_eq_some_iff_hasValue ran').mpr holds⟩
    | string _ => cases kind
    | number _ => cases kind
    | boolean _ => cases kind
  refine ⟨catalogue, collected, colors, ?_⟩
  intro entry member color expression offset stop emitted
  obtain ⟨text, safe, found⟩ := colors entry member color
  refine ⟨text, safe, ?_⟩
  simp [Node.render, emitted, Bindings.renderName, found, Value.writable, Value.rendered]

/-- A source in which a text becomes a color, a text and again a color. -/
def tintSource : String :=
  "\x7b\x7b @base: string = \"red\" \x7d\x7d\x7b\x7b @ink: color = $base \x7d\x7d" ++
    "\x7b\x7b @label: string = $ink \x7d\x7d\x7b\x7b tone : color, defaultValue: $label \x7d\x7d" ++
    "\x7b\x7b edge : color \x7d\x7d"

/-- The document that it is. -/
def tintDocument : Document :=
  ⟨tintSource, [
    .placeholder (.declaration "base" .string (some (.literal (.string "red")))) 0 27,
    .placeholder (.declaration "ink" .color (some (.reference "base"))) 27 52,
    .placeholder (.declaration "label" .string (some (.reference "ink"))) 52 79,
    .placeholder (.editable "tone" (some .color) none (some (.reference "label"))) 79 119,
    .placeholder (.editable "edge" (some .color) none none) 119 137]⟩

/-- Settings for its first variable and for its last, with blanks around both texts. -/
def tintSettings : List (Kind × String × Datum) :=
  [(.string, "base", .text " Aqua "), (.color, "edge", .text " #fff ")]

/-- The overrides that they make. -/
def tintParameters : Parameters :=
  ⟨Bindings.ofList [("base", .string " Aqua "), ("edge", .color "#fff")]⟩

/-- The values under these overrides. -/
def tintValues : Bindings Value :=
  Bindings.ofList [("base", .string " Aqua "), ("ink", .color "Aqua"),
    ("label", .string "Aqua"), ("tone", .color "Aqua"), ("edge", .color "#fff")]

theorem parse_tintSource : parse tintSource = .ok tintDocument := by decide +kernel

theorem build_tintSettings : Parameters.build tintSettings = .ok tintParameters := by
  with_unfolding_all rfl

theorem resolve_tintDocument :
    tintDocument.resolve ⟨.permissive, .error⟩ (.provider (.parameters tintParameters)) =
      .ok tintValues := by with_unfolding_all rfl

theorem confinesColors_tintSource :
    parse tintSource = .ok tintDocument ∧
      Parameters.build tintSettings = .ok tintParameters ∧
      ∃ catalogue, Catalogue.collect .permissive tintDocument = .ok catalogue ∧
        catalogue.ConfinesColors tintValues := by
  have vetted : (OverrideSource.provider (.parameters tintParameters)).Vetted :=
    OverrideSource.vetted_parameters (Parameters.vetted_of_build build_tintSettings)
  have confined := confinesColors_of_resolve parse_tintSource vetted resolve_tintDocument
  exact ⟨parse_tintSource, build_tintSettings, confined⟩

end Document

end EditableTemplate
