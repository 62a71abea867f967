import EditableTemplate.Proofs.Resolution.Replacement

/-!
# Overrides for names without an entry

An override for a name without an entry is dropped or refused. Dropped, it leaves no trace: rows of
overrides that agree on the names of a catalogue (`Resolution.AgreeOn`) resolve alike, to the same
values or to the same failure. Refused, it is the first failure of all, whatever else is wrong with
the catalogue or with the other overrides. `Resolution.resolve_undeclared_overrides` states both.
-/

namespace EditableTemplate

namespace Catalogue

/-- Whether a catalogue has an entry for a name. -/
def declares (catalogue : Catalogue) (name : String) : Bool :=
  catalogue.any fun entry => entry.name == name

theorem declares_iff {catalogue : Catalogue} {name : String} :
    catalogue.declares name = true ↔ ∃ entry ∈ catalogue, entry.name = name := by
  simp [declares]

theorem contains_index (catalogue : Catalogue) :
    (Resolution.index catalogue).contains = catalogue.declares := by
  funext name
  rw [Bool.eq_iff_iff, Bindings.contains_eq_true_iff, mem_names_index_iff, exists_entryOf?_iff,
    declares_iff]

end Catalogue

namespace Resolution

variable {catalogue : Catalogue} {overrides overrides' : Bindings Datum} {name : String}

/-- Two rows of overrides are the same as far as the names of a catalogue go. -/
def AgreeOn (catalogue : Catalogue) (overrides overrides' : Bindings Datum) : Prop :=
  ∀ name, catalogue.declares name = true → overrides.find? name = overrides'.find? name

/-- An overridden name without an entry, and every name that is overridden before it has one. -/
def FirstUndeclared (catalogue : Catalogue) (overrides : Bindings Datum) (name : String) : Prop :=
  ∃ before after, overrides.names = before ++ name :: after ∧
    (∀ earlier ∈ before, catalogue.declares earlier = true) ∧ catalogue.declares name = false

/-! ## Dropping -/

/-- Restricted to the catalogue, overrides are the same on it. -/
theorem agreeOn_filter (catalogue : Catalogue) (overrides : Bindings Datum) :
    AgreeOn catalogue (overrides.filter catalogue.declares) overrides :=
  fun _ declared => Bindings.find?_filter_of_keep declared overrides

/-- Overrides that agree on the catalogue check alike. -/
theorem AgreeOn.checksAlike (agree : AgreeOn catalogue overrides overrides') (name : String) :
    ChecksAlike catalogue overrides overrides' name := by
  intro entry described
  have declared : catalogue.declares name = true := Catalogue.declares_iff.mpr
    ⟨entry, Catalogue.mem_of_entryOf? described, Catalogue.name_of_entryOf? described⟩
  rw [agree name declared]

/-- Only overrides for names with an entry count. -/
theorem AgreeOn.resolveWith_eq (agree : AgreeOn catalogue overrides overrides') :
    resolveWith .ignore catalogue overrides = resolveWith .ignore catalogue overrides' := by
  rw [Resolution.resolveWith_eq, Resolution.resolveWith_eq]
  exact resolveDeclared_congr agree.checksAlike

/-! ## Refusing -/

/-- The name that is reported is the first one that is not declared. -/
theorem undeclared?_eq_some_iff :
    undeclared? catalogue overrides = some name ↔ FirstUndeclared catalogue overrides name := by
  rw [undeclared?, Catalogue.contains_index, List.find?_eq_some_iff_append]
  constructor
  · rintro ⟨undeclared, before, after, parts, earlier⟩
    refine ⟨before, after, parts, fun other member => ?_, by simpa using undeclared⟩
    simpa using earlier other member
  · rintro ⟨before, after, parts, earlier, undeclared⟩
    refine ⟨by simpa using undeclared, before, after, parts, fun other member => ?_⟩
    simpa using earlier other member

/-- No name is reported exactly where all are declared. -/
theorem undeclared?_eq_none_iff :
    undeclared? catalogue overrides = none ↔
      ∀ name ∈ overrides.names, catalogue.declares name = true := by
  rw [undeclared?, Catalogue.contains_index, List.find?_eq_none]
  simp only [Bool.not_eq_true, Bool.not_eq_false']

/-- If a name is not declared, there is a first one that is not. -/
theorem exists_firstUndeclared (overridden : name ∈ overrides.names)
    (undeclared : catalogue.declares name = false) :
    ∃ first, FirstUndeclared catalogue overrides first := by
  cases found : undeclared? catalogue overrides with
  | some first => exact ⟨first, undeclared?_eq_some_iff.mp found⟩
  | none =>
      have declared := undeclared?_eq_none_iff.mp found name overridden
      cases undeclared.symm.trans declared

/-- The first name that is not declared is the failure under the policy of errors. -/
theorem FirstUndeclared.resolveWith_eq (first : FirstUndeclared catalogue overrides name) :
    resolveWith .error catalogue overrides = .error (.undeclared name none) := by
  rw [Resolution.resolveWith_eq, undeclared?_eq_some_iff.mpr first]

/-- Where all names are declared the policies do the same. -/
theorem resolveWith_error_eq_ignore
    (declared : ∀ name ∈ overrides.names, catalogue.declares name = true) :
    resolveWith .error catalogue overrides = resolveWith .ignore catalogue overrides := by
  rw [resolveWith_eq, resolveWith_eq, undeclared?_eq_none_iff.mpr declared]

theorem resolve_of_normalize {source : OverrideSource} (policy : UnknownPolicy)
    (catalogue : Catalogue) (normal : source.normalize = .ok overrides) :
    resolve policy catalogue source = resolveWith policy catalogue overrides := by
  rw [resolve, normal]
  rfl

/-- **Overrides that name no variable.** If they are dropped, only the overrides for names with an
entry count: with any other overrides that agree on those names, and so with those alone, the values
or the failure are the same. If they are refused, the first one in the order of the overrides is the
failure, and if there is none, the values or the failure are those of dropping. -/
theorem resolve_undeclared_overrides (catalogue : Catalogue) (source : OverrideSource)
    (overrides : Bindings Datum) (normal : source.normalize = .ok overrides) :
    (∀ other overrides', OverrideSource.normalize other = .ok overrides' →
      AgreeOn catalogue overrides' overrides →
        resolve .ignore catalogue other = resolve .ignore catalogue source) ∧
    resolve .ignore catalogue source =
      resolve .ignore catalogue (.data (overrides.filter catalogue.declares)) ∧
    (∀ name ∈ overrides.names, catalogue.declares name = false →
      ∃ first, FirstUndeclared catalogue overrides first ∧
        resolve .error catalogue source = .error (.undeclared first none)) ∧
    ((∀ name ∈ overrides.names, catalogue.declares name = true) →
      resolve .error catalogue source = resolve .ignore catalogue source) := by
  simp only [resolve_of_normalize _ catalogue normal]
  refine ⟨?_, ?_, ?_, resolveWith_error_eq_ignore⟩
  · intro other overrides' normal' agree
    rw [resolve_of_normalize .ignore catalogue normal', agree.resolveWith_eq]
  · rw [resolve_of_normalize .ignore catalogue rfl]
    exact (agreeOn_filter catalogue overrides).resolveWith_eq.symm
  · intro name overridden undeclared
    obtain ⟨first, unknown⟩ := exists_firstUndeclared overridden undeclared
    exact ⟨first, unknown, unknown.resolveWith_eq⟩

/-- A variable whose default is its own value. -/
def selfReferring : Catalogue := [⟨"mood", .string, none, some (.reference "mood"), 0⟩]

/-- An override that no variable could hold. -/
def unsupportedOverride : Bindings Datum := Bindings.empty.put "tempo" (.list [])

/-- A circle is found if the override is dropped, but not before the override is refused. -/
theorem resolve_selfReferring :
    resolve .ignore selfReferring (.provider (.data unsupportedOverride)) =
        .error (.cycle ["mood"]) ∧
      resolve .error selfReferring (.provider (.data unsupportedOverride)) =
        .error (.undeclared "tempo" none) ∧
      resolve .error selfReferring .none = .error (.cycle ["mood"]) := by
  have circle : resolve .ignore selfReferring .none = .error (.cycle ["mood"]) := by
    with_unfolding_all rfl
  have agree : AgreeOn selfReferring Bindings.empty unsupportedOverride := by
    intro name declared
    obtain ⟨entry, member, rfl⟩ := Catalogue.declares_iff.mp declared
    obtain rfl := List.mem_singleton.mp member
    rfl
  obtain ⟨dropped, _, refused, _⟩ := resolve_undeclared_overrides selfReferring
    (.provider (.data unsupportedOverride)) unsupportedOverride rfl
  obtain ⟨_, _, _, otherwise⟩ := resolve_undeclared_overrides selfReferring .none Bindings.empty rfl
  obtain ⟨first, ⟨before, after, parts, _⟩, failed⟩ :=
    refused "tempo" (List.mem_singleton.mpr rfl) rfl
  have overridden : first ∈ unsupportedOverride.names := by
    rw [parts]
    exact List.mem_append_right before List.mem_cons_self
  obtain rfl : first = "tempo" := List.mem_singleton.mp overridden
  refine ⟨?_, failed, ?_⟩
  · rw [← dropped .none Bindings.empty rfl agree]
    exact circle
  · rw [otherwise fun _ absent => (List.not_mem_nil absent).elim]
    exact circle

end Resolution

end EditableTemplate
