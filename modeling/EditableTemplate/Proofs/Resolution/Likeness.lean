import EditableTemplate.Proofs.Catalogue.Soundness
import EditableTemplate.Proofs.Meaning
import EditableTemplate.Proofs.Resolution.Solution

/-!
# Catalogues that mean the same

Two catalogues are alike if every name has entries in them that differ in their offsets and in the
forms of their defaults only (`Catalogue.Alike`). Under the same overrides a variable then has
values that mean the same, or none in either (`Resolution.HasValue.exists_of_alike`). So one of them
can be resolved exactly if the other can, whatever happens to overrides that name no variable
(`Resolution.exists_resolve_of_alike`), and the values have the same texts.
-/

namespace EditableTemplate

/-- What an entry says: all but its place, with the default by what it means. -/
structure Entry.Meaning where
  name : String
  kind : Kind
  label : Option String
  default : Option Default.Meaning

def Entry.meaning (entry : Entry) : Entry.Meaning :=
  ⟨entry.name, entry.kind, entry.label, entry.default.map Default.meaning⟩

namespace Catalogue

variable {first second : Catalogue}

/-- Every name has entries in both catalogues that say the same, or in neither. -/
def Alike (first second : Catalogue) : Prop :=
  ∀ name, (first.entryOf? name).map Entry.meaning = (second.entryOf? name).map Entry.meaning

namespace Alike

theorem symm (alike : first.Alike second) : second.Alike first :=
  fun name => (alike name).symm

theorem exists_entry (alike : first.Alike second) {name : String} {entry : Entry}
    (described : first.entryOf? name = some entry) :
    ∃ other, second.entryOf? name = some other ∧ other.meaning = entry.meaning :=
  exists_of_map_eq (alike name) described

end Alike

end Catalogue

namespace Entry

variable {entry other : Entry}

theorem kind_eq_of_meaning (same : other.meaning = entry.meaning) : other.kind = entry.kind :=
  congrArg Meaning.kind same

/-- A default has a counterpart in an entry that means the same. -/
theorem exists_default_of_meaning (same : other.meaning = entry.meaning) {default : Default}
    (given : entry.default = some default) :
    ∃ default', other.default = some default' ∧ default'.meaning = default.meaning :=
  exists_of_map_eq (congrArg Meaning.default same.symm) given

/-- A literal default has a literal as counterpart in an entry that means the same. -/
theorem exists_literal_of_meaning (same : other.meaning = entry.meaning) {value : Value}
    (given : entry.default = some (.literal value)) :
    ∃ value', other.default = some (.literal value') ∧ value'.meaning = value.meaning := by
  obtain ⟨default, found, means⟩ := exists_default_of_meaning same given
  obtain ⟨value', rfl, equal⟩ := Default.exists_literal_of_meaning means
  exact ⟨value', found, equal⟩

theorem reference_of_meaning (same : other.meaning = entry.meaning) {target : String}
    (given : entry.default = some (.reference target)) :
    other.default = some (.reference target) := by
  obtain ⟨default, found, means⟩ := exists_default_of_meaning same given
  rw [found, Default.meaning_eq_reference_iff.mp means]

end Entry

namespace Resolution

variable {first second : Catalogue} {overrides : Bindings Datum} {policy : UnknownPolicy}
  {values values' : Bindings Value}

/-- A variable with a value has one of the same meaning in a catalogue that is alike. -/
theorem HasValue.exists_of_alike (alike : first.Alike second) {name : String} {value : Value}
    (holds : HasValue first overrides name value) :
    ∃ other, HasValue second overrides name other ∧ other.meaning = value.meaning := by
  induction holds with
  | override described overridden fits =>
      obtain ⟨entry, described', same⟩ := alike.exists_entry described
      rw [← Entry.kind_eq_of_meaning same] at fits
      exact ⟨_, .override described' overridden fits, rfl⟩
  | literal described free default fits =>
      obtain ⟨entry, described', same⟩ := alike.exists_entry described
      obtain ⟨given, default', means⟩ := Entry.exists_literal_of_meaning same default
      rw [← Entry.kind_eq_of_meaning same] at fits
      obtain ⟨other, fits', equal⟩ := Value.exists_check_of_meaning means.symm fits
      exact ⟨other, .literal described' free default' fits', equal.symm⟩
  | reference described free default _ fits ih =>
      obtain ⟨entry, described', same⟩ := alike.exists_entry described
      obtain ⟨given, known, means⟩ := ih
      rw [← Entry.kind_eq_of_meaning same] at fits
      obtain ⟨other, fits', equal⟩ := Value.exists_check_of_meaning means.symm fits
      have default' := Entry.reference_of_meaning same default
      exact ⟨other, .reference described' free default' known fits', equal.symm⟩

/-- Overrides that resolve one catalogue resolve the other. -/
theorem exists_resolveWith_of_alike (alike : first.Alike second) (acyclic : second.Acyclic)
    (resolved : resolveWith policy first overrides = .ok values) :
    ∃ values', resolveWith policy second overrides = .ok values' := by
  apply exists_resolveWith_of_hasValue acyclic
  · intro strict name overridden
    subst strict
    obtain ⟨entry, described⟩ := exists_entry_of_overridden resolved overridden
    obtain ⟨other, described', _⟩ := alike.exists_entry described
    exact ⟨other, described'⟩
  · intro name entry described
    obtain ⟨entry', described', _⟩ := alike.symm.exists_entry described
    obtain ⟨value, holds⟩ := exists_hasValue_of_resolveWith resolved described'
    obtain ⟨other, holds', _⟩ := holds.exists_of_alike alike
    exact ⟨other, holds'⟩

theorem exists_resolve_of_alike (alike : first.Alike second) (acyclic : second.Acyclic)
    {source : OverrideSource} (resolved : resolve policy first source = .ok values) :
    ∃ values', resolve policy second source = .ok values' := by
  obtain ⟨overrides, normal, ran⟩ := Except.bind_eq_ok.mp resolved
  obtain ⟨values', ran'⟩ := exists_resolveWith_of_alike alike acyclic ran
  exact ⟨values', Except.bind_eq_ok.mpr ⟨overrides, normal, ran'⟩⟩

/-- The values of a variable in resolved catalogues that are alike mean the same. -/
theorem exists_meaning_of_alike (alike : first.Alike second) {source : OverrideSource}
    (resolved : resolve policy first source = .ok values)
    (resolved' : resolve policy second source = .ok values') {name : String} {entry : Entry}
    (described : first.entryOf? name = some entry) :
    ∃ value other, values.find? name = some value ∧ values'.find? name = some other ∧
      other.meaning = value.meaning := by
  obtain ⟨overrides, normal, ran⟩ := Except.bind_eq_ok.mp resolved
  obtain ⟨overrides', normal', ran'⟩ := Except.bind_eq_ok.mp resolved'
  obtain rfl := Except.ok.inj (normal.symm.trans normal')
  obtain ⟨value, holds⟩ := exists_hasValue_of_resolveWith ran described
  obtain ⟨other, holds', means⟩ := holds.exists_of_alike alike
  exact ⟨value, other, (find?_eq_some_iff_hasValue ran).mpr holds,
    (find?_eq_some_iff_hasValue ran').mpr holds', means⟩

end Resolution

end EditableTemplate
