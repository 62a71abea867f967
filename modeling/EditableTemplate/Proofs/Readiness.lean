import EditableTemplate.Proofs.Resolution.Soundness
import EditableTemplate.Readiness

/-!
# Variables that need an override

A variable of a collected catalogue can be left out of the overrides exactly if it has a default.
For overrides that leave it out, every other variable gets a sample of its kind
(`Catalogue.samplesWithout`): the default refers to another variable, if to any, and a sample of an
acceptable kind fits. So the variables that need an override are those without a default
(`Catalogue.Sound.mem_withoutDefault_iff_required`).
-/

namespace EditableTemplate

/-- A value of a kind. The string is the text of a color, so it can stand where one is wanted. -/
def Kind.sample : Kind → Value
  | .string => .string "red"
  | .number => .number (.integer 0)
  | .boolean => .boolean true
  | .color => .color "red"

/-- The sample of a kind passes the check of that kind. -/
theorem Kind.check_sample (kind : Kind) (name : String) :
    (Datum.ofValue kind.sample).check name kind = .ok kind.sample := by
  cases kind with
  | string => rfl
  | number => rfl
  | boolean => rfl
  | color => rfl

/-- Where a kind is accepted, so is its sample. -/
theorem Kind.exists_check_sample {declared actual : Kind}
    (accepts : declared.accepts actual = true) (name : String) :
    ∃ value, actual.sample.check name declared = .ok value := by
  cases refused : actual.sample.check name declared with
  | ok value => exact ⟨value, rfl⟩
  | error failure =>
      have own : actual.sample.kind = actual := by cases actual <;> rfl
      rw [← own] at accepts
      obtain ⟨_, text, isString, invalid, _⟩ := Value.check_error_of_accepts accepts refused
      have red : text = "red" := by cases actual <;> cases isString; rfl
      subst red
      have valid : Color.ofText? "red" = some "red" := by with_unfolding_all rfl
      cases valid.symm.trans invalid

namespace Catalogue

variable {catalogue : Catalogue} {name : String}

/-- Overrides for all variables but one: each is a sample of its kind. -/
def samplesWithout (catalogue : Catalogue) (name : String) : Bindings Datum :=
  ((Resolution.index catalogue).filter fun other => other ≠ name).map fun entry =>
    Datum.ofValue entry.kind.sample

theorem not_mem_names_samplesWithout (catalogue : Catalogue) (name : String) :
    name ∉ (catalogue.samplesWithout name).names := by
  rw [samplesWithout, Bindings.names_map, Bindings.names, Bindings.filter]
  simp

theorem find?_samplesWithout_self (catalogue : Catalogue) (name : String) :
    (catalogue.samplesWithout name).find? name = none :=
  Bindings.find?_eq_none_iff.mpr (catalogue.not_mem_names_samplesWithout name)

/-- The samples have one for every other variable. -/
theorem find?_samplesWithout {other : String} (apart : other ≠ name) :
    (catalogue.samplesWithout name).find? other =
      (catalogue.entryOf? other).map fun entry => Datum.ofValue entry.kind.sample := by
  rw [samplesWithout, Bindings.find?_map, Bindings.find?_filter_of_keep (by simpa using apart),
    find?_index]

/-- A variable that is not left out has the sample of its kind. -/
theorem hasValue_sample {other : String} {entry : Entry} (apart : other ≠ name)
    (described : catalogue.entryOf? other = some entry) :
    Resolution.HasValue catalogue (catalogue.samplesWithout name) other entry.kind.sample := by
  have overridden : (catalogue.samplesWithout name).find? other =
      some (Datum.ofValue entry.kind.sample) := by
    rw [find?_samplesWithout apart, described]
    rfl
  exact .override described overridden (entry.kind.check_sample other)

/-- A variable with a default has a value without an override. -/
theorem Sound.exists_hasValue_without (sound : catalogue.Sound) {entry : Entry}
    {default : Default} (described : catalogue.entryOf? name = some entry)
    (given : entry.default = some default) :
    ∃ value, Resolution.HasValue catalogue (catalogue.samplesWithout name) name value := by
  have free := catalogue.find?_samplesWithout_self name
  have member := mem_of_entryOf? described
  cases default with
  | literal value =>
      have fits : value.check name entry.kind = .ok value := by
        rw [← sound.literal entry member value given]
        exact value.check_self name
      exact ⟨value, .literal described free given fits⟩
  | reference target =>
      obtain ⟨other, inside, named, accepts⟩ := sound.reference entry member target given
      subst named
      have described' := entryOf?_name_of_mem sound.distinct inside
      -- the default does not refer to its own variable, which would be a circle
      have apart : other.name ≠ name := by
        intro same
        have refers : catalogue.RefersTo name other.name :=
          ⟨⟨entry, described, given⟩, other, inside, rfl⟩
        rw [same] at refers
        exact sound.acyclic name (.single refers)
      obtain ⟨value, fits⟩ := Kind.exists_check_sample accepts name
      exact ⟨value, .reference described free given (hasValue_sample apart described') fits⟩

/-- There are values without an override for a variable, unless it has no default. -/
theorem Sound.exists_resolve_without (sound : catalogue.Sound) (policy : UnknownPolicy)
    (defaults : ∀ entry ∈ catalogue, entry.name = name → entry.default ≠ none) :
    ∃ values, Resolution.resolve policy catalogue (.data (catalogue.samplesWithout name)) =
      .ok values := by
  apply Resolution.exists_resolveWith_of_hasValue sound.acyclic
  · intro _ other overridden
    have apart : other ≠ name := by
      rintro rfl
      exact catalogue.not_mem_names_samplesWithout other overridden
    obtain ⟨datum, found⟩ := Bindings.mem_names_iff.mp overridden
    rw [find?_samplesWithout apart] at found
    obtain ⟨entry, described, _⟩ := Option.map_eq_some_iff.mp found
    exact ⟨entry, described⟩
  · intro other entry described
    by_cases same : other = name
    · subst same
      have present := defaults entry (mem_of_entryOf? described) (name_of_entryOf? described)
      obtain ⟨default, given⟩ := Option.ne_none_iff_exists'.mp present
      exact sound.exists_hasValue_without described given
    · exact ⟨_, hasValue_sample same described⟩

/-- The variables without a default are those whose entry has none. -/
theorem mem_withoutDefault_iff :
    name ∈ catalogue.withoutDefault ↔
      ∃ entry ∈ catalogue, entry.name = name ∧ entry.default = none := by
  simp only [withoutDefault, List.mem_map, List.mem_filter, Option.isNone_iff_eq_none]
  constructor
  · rintro ⟨entry, ⟨member, default⟩, named⟩
    exact ⟨entry, member, named, default⟩
  · rintro ⟨entry, member, named, default⟩
    exact ⟨entry, ⟨member, default⟩, named⟩

/-- The variables without a default stand in the order of the catalogue. -/
theorem withoutDefault_sublist (catalogue : Catalogue) :
    catalogue.withoutDefault.Sublist (catalogue.map Entry.name) :=
  List.filter_sublist.map Entry.name

/-- A variable without a default has a value only under an override. -/
theorem Sound.mem_names_of_resolve (sound : catalogue.Sound) {policy : UnknownPolicy}
    {overrides : Bindings Datum} {values : Bindings Value} {entry : Entry}
    (member : entry ∈ catalogue) (default : entry.default = none)
    (resolved : Resolution.resolve policy catalogue (.data overrides) = .ok values) :
    entry.name ∈ overrides.names := by
  have described := entryOf?_name_of_mem sound.distinct member
  obtain ⟨value, holds⟩ := Resolution.exists_hasValue_of_resolveWith resolved described
  cases holds with
  | override _ overridden _ => exact Bindings.mem_names_of_find? overridden
  | literal described' _ default' _ =>
      obtain rfl := Option.some.inj (described.symm.trans described')
      cases default.symm.trans default'
  | reference described' _ default' _ _ =>
      obtain rfl := Option.some.inj (described.symm.trans described')
      cases default.symm.trans default'

/-- The variables without a default are those that all overrides have that give values. -/
theorem Sound.mem_withoutDefault_iff_required (sound : catalogue.Sound) (policy : UnknownPolicy) :
    name ∈ catalogue.withoutDefault ↔
      ∀ overrides values, Resolution.resolve policy catalogue (.data overrides) = .ok values →
        name ∈ overrides.names := by
  rw [mem_withoutDefault_iff]
  constructor
  · intro ⟨entry, member, named, default⟩ overrides values resolved
    subst named
    exact sound.mem_names_of_resolve member default resolved
  · intro required
    by_contra defaults
    have present : ∀ entry ∈ catalogue, entry.name = name → entry.default ≠ none :=
      fun entry member named default => defaults ⟨entry, member, named, default⟩
    obtain ⟨values, resolved⟩ := sound.exists_resolve_without policy present
    exact catalogue.not_mem_names_samplesWithout name (required _ values resolved)

/-- A catalogue is ready if there are values without overrides. -/
theorem readiness_eq_ready {policy : UnknownPolicy} {count : Nat} :
    catalogue.readiness policy = .ok (.ready count) ↔
      count = catalogue.length ∧
        ∃ values, Resolution.resolve policy catalogue .none = .ok values := by
  unfold readiness
  split
  · rename_i values resolved
    constructor
    · rintro ⟨⟩
      exact ⟨rfl, values, resolved⟩
    · rintro ⟨rfl, _⟩
      rfl
  · rename_i missing failed
    refine ⟨?_, ?_⟩
    · split <;> rintro ⟨⟩
    · intro ⟨_, _, resolved⟩
      cases failed.symm.trans resolved
  · rename_i failed
    refine ⟨nofun, ?_⟩
    intro ⟨_, _, resolved⟩
    cases failed.symm.trans resolved

/-- If a variable has neither a default nor an override, the catalogue is not ready, for want of all
the variables without a default. -/
theorem Sound.readiness_eq_missing (sound : catalogue.Sound) {policy : UnknownPolicy}
    (unresolved : Resolution.resolve policy catalogue .none = .error (.unresolved name)) :
    catalogue.readiness policy = .ok (.missing catalogue.withoutDefault) ∧
      name ∈ catalogue.withoutDefault := by
  have listed : name ∈ catalogue.withoutDefault := by
    cases Resolution.cause_of_resolve_error sound unresolved with
    | missing _ member _ default => exact mem_withoutDefault_iff.mpr ⟨_, member, rfl, default⟩
  refine ⟨?_, listed⟩
  rw [readiness, unresolved]
  cases names : catalogue.withoutDefault with
  | nil =>
      rw [names] at listed
      cases listed
  | cons first rest => rfl

end Catalogue

end EditableTemplate
