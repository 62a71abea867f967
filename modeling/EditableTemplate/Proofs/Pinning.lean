import EditableTemplate.Proofs.Noninterference
import EditableTemplate.Proofs.Resolution.Soundness

/-!
# Overrides that repeat the values

Values that were computed can be supplied as overrides again (`Bindings.select`), for any of the
variables, and beside the overrides that they were computed under (`Bindings.extend`). Then every
variable has the value that it had (`Resolution.HasValue.of_pins`), however the references between
the variables that are supplied and the others run. A plain datum that repeats a value is taken for
its natural kind and has to become a color again, which it does if it is one without blank
characters around it (`Datum.check_ofValue`).
-/

namespace EditableTemplate

/-! ## More overrides -/

namespace Bindings

variable {α β : Type}

/-- The bindings with added ones, which take the place of those with the same names. -/
def extend (bindings added : Bindings α) : Bindings α :=
  added.entries.foldl (fun result entry => result.put entry.1 entry.2) bindings

/-- The values of some names in another form. Names without a value are left out. -/
def select (values : Bindings α) (names : List String) (form : α → β) : Bindings β :=
  ofList (names.filterMap fun name => (values.find? name).map fun value => (name, form value))

/-- Added bindings come before those that are there. -/
theorem find?_extend (bindings added : Bindings α) (name : String) :
    (bindings.extend added).find? name = (added.find? name).or (bindings.find? name) := by
  have distinct : (added.entries.reverse.map Prod.fst).Nodup := by
    rw [List.map_reverse, List.nodup_reverse]
    exact added.distinct
  let backwards : Bindings α := ⟨added.entries.reverse, distinct⟩
  have same : backwards.find? name = added.find? name :=
    find?_eq_of_perm (List.reverse_perm added.entries) name
  rw [extend, find?_foldl_put, ← same]
  rfl

theorem lookup?_filterMap (values : Bindings α) (form : α → β) (names : List String)
    (name : String) :
    lookup? name
        (names.filterMap fun name => (values.find? name).map fun value => (name, form value)) =
      if name ∈ names then (values.find? name).map form else none := by
  induction names with
  | nil => rfl
  | cons first rest ih =>
      cases found : values.find? first with
      | none =>
          rw [List.filterMap_cons_none (by rw [found]; rfl), ih]
          by_cases same : name = first
          · simp [same, found]
          · simp [same]
      | some value =>
          rw [List.filterMap_cons_some (by rw [found]; rfl), lookup?]
          by_cases same : first = name
          · subst same
            simp [found]
          · have other : name ≠ first := fun equal => same equal.symm
            simp [same, other, ih]

/-- A selection binds the names listed to the form of their values. -/
theorem find?_select (values : Bindings α) (names : List String) (form : α → β) (name : String) :
    (values.select names form).find? name =
      if name ∈ names then (values.find? name).map form else none := by
  rw [select, find?_ofList, ← List.filterMap_reverse, lookup?_filterMap]
  simp

end Bindings

/-! ## Values as overrides -/

namespace Datum

/-- A value of a kind is taken as it is. -/
theorem check_typed (name : String) (value : Value) :
    (typed value).check name value.kind = .ok value :=
  value.check_self name

/-- The plain datum of a value is taken for the value, a color if it is one without blank characters
around it. -/
theorem check_ofValue (name : String) {value : Value}
    (color : ∀ text, value = .color text → Color.ofText? text = some text) :
    (ofValue value).check name value.kind = .ok value := by
  cases value with
  | string text => rfl
  | number amount => cases amount <;> rfl
  | boolean truth => rfl
  | color text =>
      apply Value.check_eq_ok_iff.mpr
      rw [Value.kind, Value.retag?, color text rfl]
      rfl

end Datum

namespace Resolution

variable {catalogue : Catalogue} {overrides added : Bindings Datum} {policy : UnknownPolicy}
  {values : Bindings Value}

/-- Every added override is one that comes to the value that the variable has. -/
def Pins (values : Bindings Value) (added : Bindings Datum) : Prop :=
  ∀ name datum, added.find? name = some datum →
    ∃ value, values.find? name = some value ∧ datum.check name value.kind = .ok value

/-- A selection of values in a form that checks to them pins these values. -/
theorem pins_select {form : Value → Datum} (names : List String)
    (fits : ∀ name value, values.find? name = some value →
      (form value).check name value.kind = .ok value) :
    Pins values (values.select names form) := by
  intro name datum supplied
  rw [Bindings.find?_select] at supplied
  split at supplied
  · obtain ⟨value, found, rfl⟩ := Option.map_eq_some_iff.mp supplied
    exact ⟨value, found, fits name value found⟩
  · cases supplied

/-- An added override gives its variable the value that it had. -/
theorem HasValue.of_supplied (resolved : resolveWith policy catalogue overrides = .ok values)
    (pins : Pins values added) {name : String} {value : Value} {datum : Datum}
    (holds : HasValue catalogue overrides name value) (supplied : added.find? name = some datum) :
    HasValue catalogue (overrides.extend added) name value := by
  obtain ⟨entry, described⟩ := holds.exists_entry
  obtain ⟨value', found, fits⟩ := pins name datum supplied
  obtain rfl := ((find?_eq_some_iff_hasValue resolved).mp found).unique holds
  rw [holds.kind_eq described] at fits
  apply HasValue.override described _ fits
  rw [Bindings.find?_extend, supplied]
  rfl

/-- With overrides that come to the values, every variable has the value that it had. -/
theorem HasValue.of_pins (resolved : resolveWith policy catalogue overrides = .ok values)
    (pins : Pins values added) {name : String} {value : Value}
    (holds : HasValue catalogue overrides name value) :
    HasValue catalogue (overrides.extend added) name value := by
  have kept : ∀ {name}, added.find? name = none →
      (overrides.extend added).find? name = overrides.find? name := by
    intro name free
    rw [Bindings.find?_extend, free, Option.none_or]
  -- A variable without an added override has its value for the reason that it had before.
  induction holds with
  | @override name _ _ _ described overridden fits =>
      cases supplied : added.find? name with
      | some datum => exact of_supplied resolved pins (.override described overridden fits) supplied
      | none =>
          rw [← kept supplied] at overridden
          exact .override described overridden fits
  | @literal name _ _ _ described free default fits =>
      cases supplied : added.find? name with
      | some datum =>
          exact of_supplied resolved pins (.literal described free default fits) supplied
      | none =>
          rw [← kept supplied] at free
          exact .literal described free default fits
  | @reference name _ _ _ _ described free default known fits ih =>
      cases supplied : added.find? name with
      | some datum =>
          exact of_supplied resolved pins (.reference described free default known fits) supplied
      | none =>
          rw [← kept supplied] at free
          exact .reference described free default ih fits

/-- Overrides that come to the values of variables do not change any value. -/
theorem resolveWith_extend (resolved : resolveWith policy catalogue overrides = .ok values)
    (pins : Pins values added) :
    resolveWith policy catalogue (overrides.extend added) = .ok values := by
  have described : ∀ {name value}, values.find? name = some value →
      ∃ entry, catalogue.entryOf? name = some entry := by
    intro name value found
    exact ((find?_eq_some_iff_hasValue resolved).mp found).exists_entry
  have again : ∃ values', resolveWith policy catalogue (overrides.extend added) = .ok values' := by
    apply exists_resolveWith_of_hasValue (acyclic_of_resolveWith resolved)
    · intro strict name supplied
      subst strict
      obtain ⟨datum, found⟩ := Bindings.mem_names_iff.mp supplied
      rw [Bindings.find?_extend] at found
      rcases Option.or_eq_some_iff.mp found with first | ⟨_, second⟩
      · obtain ⟨value, found, _⟩ := pins name datum first
        exact described found
      · exact exists_entry_of_overridden resolved (Bindings.mem_names_of_find? second)
    · intro name entry described
      obtain ⟨value, holds⟩ := exists_hasValue_of_resolveWith resolved described
      exact ⟨value, holds.of_pins resolved pins⟩
  obtain ⟨values', resolved'⟩ := again
  have order : values'.names = values.names :=
    Except.ok.inj ((schedule_of_resolveWith resolved').symm.trans
      (schedule_of_resolveWith resolved))
  rw [resolved']
  congr 1
  apply Bindings.eq_of_find?_eq order
  intro name
  by_cases member : name ∈ values.names
  · obtain ⟨value, found⟩ := Bindings.mem_names_iff.mp member
    have holds := ((find?_eq_some_iff_hasValue resolved).mp found).of_pins resolved pins
    rw [found, (find?_eq_some_iff_hasValue resolved').mpr holds]
  · have absent : name ∉ values'.names := by
      rw [order]
      exact member
    rw [Bindings.find?_eq_none_iff.mpr member, Bindings.find?_eq_none_iff.mpr absent]

end Resolution

namespace Document

variable {document : Document} {catalogue : Catalogue}

/-- **Overrides that repeat the values.** Let a document be collected and resolved under overrides.
If the values of any of the variables are supplied as well, typed as they are, the values remain the
same, and so does what the document is rendered to. If every color is one without blank characters
around it, that is also so for the plain data of the values. -/
theorem pinned_values_stay (policy : Policy) {source : OverrideSource}
    {overrides : Bindings Datum} {values : Bindings Value}
    (collected : Catalogue.collect policy.merge document = .ok catalogue)
    (normal : source.normalize = .ok overrides)
    (resolved : Resolution.resolve policy.unknown catalogue source = .ok values)
    (names : List String) :
    (Resolution.resolve policy.unknown catalogue
        (.data (overrides.extend (values.select names .typed))) = .ok values ∧
      document.renderWith policy (.data (overrides.extend (values.select names .typed))) =
        document.renderWith policy source) ∧
    ((∀ name text, values.find? name = some (.color text) → ∃ chars,
        text = CodePoints.ofChars chars ∧ Color.isValid chars = true ∧ Text.trim chars = chars) →
      Resolution.resolve policy.unknown catalogue
          (.data (overrides.extend (values.select names Datum.ofValue))) = .ok values ∧
        document.renderWith policy (.data (overrides.extend (values.select names Datum.ofValue))) =
          document.renderWith policy source) := by
  have stays : ∀ added, Resolution.Pins values added →
      Resolution.resolve policy.unknown catalogue (.data (overrides.extend added)) = .ok values ∧
      document.renderWith policy (.data (overrides.extend added)) =
        document.renderWith policy source := by
    intro added pins
    have ran : Resolution.resolveWith policy.unknown catalogue overrides = .ok values := by
      rw [Resolution.resolve, normal] at resolved
      exact resolved
    have again : Resolution.resolve policy.unknown catalogue (.data (overrides.extend added)) =
        .ok values :=
      Resolution.resolveWith_extend ran pins
    refine ⟨again, ?_⟩
    rw [renderWith_of_resolve collected again, renderWith_of_resolve collected resolved]
  constructor
  · exact stays _ (Resolution.pins_select names fun name value _ => Datum.check_typed name value)
  · intro colors
    apply stays _ (Resolution.pins_select names _)
    intro name value found
    apply Datum.check_ofValue
    rintro text rfl
    obtain ⟨chars, rfl, valid, trimmed⟩ := colors name text found
    exact Color.ofText?_ofChars valid trimmed

/-- The values of a document whose accent is the color that a string gives. -/
def accentValues : Bindings Value :=
  Bindings.ofList [("base", .string " blue "), ("accent", .color "blue")]

/-- The accent can be supplied as the plain text that it came to, which no longer has the blanks of
the string. -/
theorem accent_stays :
    Catalogue.collect .permissive Resolution.accentDocument = .ok Resolution.accentCatalogue ∧
      Resolution.resolve .error Resolution.accentCatalogue Resolution.accentOverrides =
        .ok accentValues ∧
      Resolution.resolve .error Resolution.accentCatalogue
          (.data ((Bindings.ofList [("base", .text " blue ")]).extend
            (accentValues.select ["accent"] Datum.ofValue))) = .ok accentValues := by
  have collected : Catalogue.collect .permissive Resolution.accentDocument =
      .ok Resolution.accentCatalogue := by with_unfolding_all rfl
  have resolved : Resolution.resolve .error Resolution.accentCatalogue Resolution.accentOverrides =
      .ok accentValues := by with_unfolding_all rfl
  have colors : ∀ name text, accentValues.find? name = some (.color text) → ∃ chars,
      text = CodePoints.ofChars chars ∧ Color.isValid chars = true ∧ Text.trim chars = chars := by
    intro name text found
    have listed : (name, Value.color text) ∈ accentValues.entries :=
      Bindings.find?_eq_some_iff.mp found
    have entries : accentValues.entries =
        [("base", .string " blue "), ("accent", .color "blue")] := by decide
    simp only [entries, List.mem_cons, Prod.mk.injEq, reduceCtorEq, and_false, Value.color.injEq,
      List.not_mem_nil, or_false, false_or] at listed
    exact ⟨['b', 'l', 'u', 'e'], by rw [listed.2]; rfl, by decide, by decide⟩
  refine ⟨collected, resolved, ?_⟩
  exact ((pinned_values_stay ⟨.permissive, .error⟩ collected rfl resolved ["accent"]).2 colors).1

end Document

end EditableTemplate
