import EditableTemplate.Proofs.Except
import EditableTemplate.Proofs.Resolution.Meaning

/-!
# The values of a catalogue as a solution

Resolving solves one equation for each variable: its value is its override, its literal default, or
the value of the variable that its default refers to, checked against its kind
(`Resolution.Solves`). If undeclared overrides are dropped, there are values exactly if no chain of
references goes round in a circle, every override fits, and every variable that is not overridden
has a default that fits. The values are then the only solution, and no order of the entries or of
the overrides matters to them (`Resolution.resolve_ignore_solves`).
-/

namespace EditableTemplate.Resolution

variable {catalogue : Catalogue} {overrides : Bindings Datum}

/-- Every override for a variable fits its kind. -/
def OverridesFit (catalogue : Catalogue) (overrides : Bindings Datum) : Prop :=
  ∀ name entry datum, catalogue.entryOf? name = some entry → overrides.find? name = some datum →
    ∃ value, datum.check name entry.kind = .ok value

/-- Every variable that is not overridden has a literal default that fits its kind, or refers to a
variable whose value does. -/
def DefaultsFit (catalogue : Catalogue) (overrides : Bindings Datum) : Prop :=
  ∀ name entry, catalogue.entryOf? name = some entry → overrides.find? name = none →
    (∃ given value, entry.default = some (.literal given) ∧
      given.check name entry.kind = .ok value) ∨
    ∃ target given value, entry.default = some (.reference target) ∧
      HasValue catalogue overrides target given ∧ given.check name entry.kind = .ok value

/-- The equation of a variable, given the values of the others. -/
def Determines (overrides : Bindings Datum) (lookup : String → Option Value) (entry : Entry)
    (result : Value) : Prop :=
  match overrides.find? entry.name, entry.default with
  | some datum, _ => datum.check entry.name entry.kind = .ok result
  | none, some (.literal given) => given.check entry.name entry.kind = .ok result
  | none, some (.reference target) =>
    ∃ given, lookup target = some given ∧ given.check entry.name entry.kind = .ok result
  | none, none => False

/-- A map from names to values that has the names of the entries and satisfies their equations. -/
structure Solves (catalogue : Catalogue) (overrides : Bindings Datum)
    (lookup : String → Option Value) : Prop where
  domain : ∀ name, (∃ value, lookup name = some value) ↔ ∃ entry ∈ catalogue, entry.name = name
  determined : ∀ name entry result, catalogue.entryOf? name = some entry →
    lookup name = some result → Determines overrides lookup entry result

/-- A solution gives a variable the value that it has. -/
theorem Solves.lookup_of_hasValue {lookup : String → Option Value}
    (solves : Solves catalogue overrides lookup) {name : String} {value : Value}
    (holds : HasValue catalogue overrides name value) : lookup name = some value := by
  induction holds with
  | override described overridden fits =>
      obtain ⟨result, found⟩ :=
        (solves.domain _).mpr (Catalogue.exists_entryOf?_iff.mp ⟨_, described⟩)
      have equation := solves.determined _ _ _ described found
      rw [Determines, Catalogue.name_of_entryOf? described, overridden] at equation
      rw [found, Except.ok.inj (equation.symm.trans fits)]
  | literal described free default fits =>
      obtain ⟨result, found⟩ :=
        (solves.domain _).mpr (Catalogue.exists_entryOf?_iff.mp ⟨_, described⟩)
      have equation := solves.determined _ _ _ described found
      rw [Determines, Catalogue.name_of_entryOf? described, free, default] at equation
      rw [found, Except.ok.inj (equation.symm.trans fits)]
  | reference described free default _ fits ih =>
      obtain ⟨result, found⟩ :=
        (solves.domain _).mpr (Catalogue.exists_entryOf?_iff.mp ⟨_, described⟩)
      have equation := solves.determined _ _ _ described found
      rw [Determines, Catalogue.name_of_entryOf? described, free, default] at equation
      obtain ⟨given, stored, checked⟩ := equation
      obtain rfl := Option.some.inj (stored.symm.trans ih)
      rw [found, Except.ok.inj (checked.symm.trans fits)]

/-- What a variable refers to stands before it in the order of the references. -/
theorem mem_of_refersTo {before after : List String} {name target : String}
    (scheduled : catalogue.graph.schedule = .ok (before ++ name :: after))
    (refers : catalogue.RefersTo name target) : target ∈ before :=
  (DependencyGraph.perm_names_of_schedule scheduled).2 before name after rfl target
    (Catalogue.links_graph_iff.mpr refers)

/-- The order of the references has the names of the entries. -/
theorem mem_schedule_iff {order : List String} (scheduled : catalogue.graph.schedule = .ok order)
    {name : String} : name ∈ order ↔ ∃ entry, catalogue.entryOf? name = some entry := by
  rw [(DependencyGraph.perm_names_of_schedule scheduled).1.mem_iff, Catalogue.names_graph,
    Catalogue.mem_names_index_iff]

/-- Resolving gives the variables their values and nothing else. -/
theorem find?_eq_some_iff_hasValue {policy : UnknownPolicy} {values : Bindings Value}
    (resolved : resolveWith policy catalogue overrides = .ok values) {name : String}
    {value : Value} : values.find? name = some value ↔ HasValue catalogue overrides name value := by
  have outcome := outcome_resolveWith policy catalogue overrides
  rw [resolved] at outcome
  cases outcome with
  | resolved scheduled filled =>
      refine ⟨filled.holds name value, fun holds => ?_⟩
      have member := (mem_schedule_iff scheduled).mpr holds.exists_entry
      exact (filled.find?_eq_some_iff member fun _ _ => HasValue.unique).mpr holds

/-- Resolving gives every variable a value. -/
theorem mem_names_resolveWith_iff {policy : UnknownPolicy} {values : Bindings Value}
    (resolved : resolveWith policy catalogue overrides = .ok values) {name : String} :
    name ∈ values.names ↔ ∃ entry ∈ catalogue, entry.name = name := by
  have outcome := outcome_resolveWith policy catalogue overrides
  rw [resolved] at outcome
  cases outcome with
  | resolved scheduled filled =>
      rw [filled.names, mem_schedule_iff scheduled, Catalogue.exists_entryOf?_iff]

/-- If the overrides resolve, every variable has a value. -/
theorem exists_hasValue_of_resolveWith {policy : UnknownPolicy} {values : Bindings Value}
    (resolved : resolveWith policy catalogue overrides = .ok values) {name : String}
    {entry : Entry} (described : catalogue.entryOf? name = some entry) :
    ∃ value, HasValue catalogue overrides name value := by
  have member := (mem_names_resolveWith_iff resolved).mpr
    (Catalogue.exists_entryOf?_iff.mp ⟨entry, described⟩)
  obtain ⟨value, found⟩ := Bindings.mem_names_iff.mp member
  exact ⟨value, (find?_eq_some_iff_hasValue resolved).mp found⟩

/-- What the overrides resolve to solves the catalogue. -/
theorem solves_resolveWith {policy : UnknownPolicy} {values : Bindings Value}
    (resolved : resolveWith policy catalogue overrides = .ok values) :
    Solves catalogue overrides values.find? where
  domain := by
    intro name
    rw [← Bindings.mem_names_iff, mem_names_resolveWith_iff resolved]
  determined := by
    intro name entry result described found
    rw [Determines, Catalogue.name_of_entryOf? described]
    cases (find?_eq_some_iff_hasValue resolved).mp found with
    | override described' overridden fits =>
        obtain rfl := Option.some.inj (described.symm.trans described')
        rw [overridden]
        exact fits
    | literal described' free default fits =>
        obtain rfl := Option.some.inj (described.symm.trans described')
        rw [free, default]
        exact fits
    | reference described' free default known fits =>
        obtain rfl := Option.some.inj (described.symm.trans described')
        rw [free, default]
        exact ⟨_, (find?_eq_some_iff_hasValue resolved).mpr known, fits⟩

/-- Two solutions are the same map, if every variable has a value. -/
theorem Solves.eq_find? {policy : UnknownPolicy} {values : Bindings Value}
    {lookup : String → Option Value} (solves : Solves catalogue overrides lookup)
    (resolved : resolveWith policy catalogue overrides = .ok values) :
    lookup = values.find? := by
  funext name
  cases found : values.find? name with
  | some value => exact solves.lookup_of_hasValue ((find?_eq_some_iff_hasValue resolved).mp found)
  | none =>
      cases other : lookup name with
      | none => rfl
      | some value =>
          have described := (solves.domain name).mp ⟨value, other⟩
          rw [← mem_names_resolveWith_iff resolved] at described
          exact (Bindings.find?_eq_none_iff.mp found described).elim

/-- If every variable has a value, the overrides fit. -/
theorem overridesFit_of_hasValue
    (all : ∀ name entry, catalogue.entryOf? name = some entry →
      ∃ value, HasValue catalogue overrides name value) : OverridesFit catalogue overrides := by
  intro name entry datum described overridden
  obtain ⟨value, holds⟩ := all name entry described
  cases holds with
  | override described' overridden' fits =>
      obtain rfl := Option.some.inj (described.symm.trans described')
      obtain rfl := Option.some.inj (overridden.symm.trans overridden')
      exact ⟨_, fits⟩
  | literal _ free _ _ => cases overridden.symm.trans free
  | reference _ free _ _ _ => cases overridden.symm.trans free

/-- If every variable has a value, the defaults fit. -/
theorem defaultsFit_of_hasValue
    (all : ∀ name entry, catalogue.entryOf? name = some entry →
      ∃ value, HasValue catalogue overrides name value) : DefaultsFit catalogue overrides := by
  intro name entry described free
  obtain ⟨value, holds⟩ := all name entry described
  cases holds with
  | override _ overridden _ => cases free.symm.trans overridden
  | literal described' _ default fits =>
      obtain rfl := Option.some.inj (described.symm.trans described')
      exact .inl ⟨_, _, default, fits⟩
  | reference described' _ default known fits =>
      obtain rfl := Option.some.inj (described.symm.trans described')
      exact .inr ⟨_, _, _, default, known, fits⟩

/-- If overrides and defaults fit, every variable has a value. -/
theorem exists_hasValue_of_fit (fitting : OverridesFit catalogue overrides)
    (defaults : DefaultsFit catalogue overrides) {name : String} {entry : Entry}
    (described : catalogue.entryOf? name = some entry) :
    ∃ value, HasValue catalogue overrides name value := by
  cases overridden : overrides.find? name with
  | some datum =>
      obtain ⟨value, fits⟩ := fitting name entry datum described overridden
      exact ⟨value, .override described overridden fits⟩
  | none =>
      rcases defaults name entry described overridden with
        ⟨given, value, default, fits⟩ | ⟨target, given, value, default, known, fits⟩
      · exact ⟨value, .literal described overridden default fits⟩
      · exact ⟨value, .reference described overridden default known fits⟩

/-- Values are computed in the order of the references, and so are their names. -/
theorem schedule_of_resolveWith {policy : UnknownPolicy} {values : Bindings Value}
    (resolved : resolveWith policy catalogue overrides = .ok values) :
    catalogue.graph.schedule = .ok values.names := by
  have outcome := outcome_resolveWith policy catalogue overrides
  rw [resolved] at outcome
  cases outcome with
  | resolved scheduled filled =>
      rw [filled.names]
      exact scheduled

/-- If the overrides resolve, no references go round. -/
theorem acyclic_of_resolveWith {policy : UnknownPolicy} {values : Bindings Value}
    (resolved : resolveWith policy catalogue overrides = .ok values) : catalogue.Acyclic := by
  rw [← Catalogue.acyclic_graph_iff]
  exact DependencyGraph.schedule_isOk_iff_acyclic.mp ⟨_, schedule_of_resolveWith resolved⟩

/-- If overrides that name no variable are an error, a resolved catalogue has all their names. -/
theorem exists_entry_of_overridden {values : Bindings Value}
    (resolved : resolveWith .error catalogue overrides = .ok values) {name : String}
    (overridden : name ∈ overrides.names) : ∃ entry, catalogue.entryOf? name = some entry := by
  obtain ⟨kept, allowed, _⟩ := Except.bind_eq_ok.mp resolved
  unfold supplied at allowed
  split at allowed
  · cases allowed
  · rename_i policy found permitted
    cases unknown : overrides.names.find? fun name => !(index catalogue).contains name with
    | some missing => exact (permitted missing rfl unknown).elim
    | none =>
        have known := List.find?_eq_none.mp unknown name overridden
        rw [← Catalogue.mem_names_index_iff, ← Bindings.contains_eq_true_iff]
        simpa using known

/-- There are values if every variable has one and no override that matters is undeclared. -/
theorem exists_resolveWith_of_hasValue {policy : UnknownPolicy} (acyclic : catalogue.Acyclic)
    (declared : policy = .error → ∀ name ∈ overrides.names,
      ∃ entry, catalogue.entryOf? name = some entry)
    (all : ∀ name entry, catalogue.entryOf? name = some entry →
      ∃ value, HasValue catalogue overrides name value) :
    ∃ values, resolveWith policy catalogue overrides = .ok values := by
  have outcome := outcome_resolveWith policy catalogue overrides
  revert outcome
  generalize resolveWith policy catalogue overrides = result
  intro outcome
  cases outcome with
  | unknown strict overridden absent =>
      obtain ⟨entry, described⟩ := declared strict _ overridden
      cases absent.symm.trans described
  | circle circle => exact (circle.not_acyclic (Catalogue.acyclic_graph_iff.mpr acyclic)).elim
  | failed scheduled filled described failed =>
      obtain ⟨value, holds⟩ := all _ _ described
      have computed := value_of_hasValue described filled
        (fun target refers => mem_of_refersTo scheduled refers) holds
      cases failed.symm.trans computed
  | resolved _ _ => exact ⟨_, rfl⟩

/-- There are values exactly if the references are acyclic and everything fits. -/
theorem resolveWith_ignore_isOk_iff :
    (∃ values, resolveWith .ignore catalogue overrides = .ok values) ↔
      catalogue.Acyclic ∧ OverridesFit catalogue overrides ∧ DefaultsFit catalogue overrides := by
  constructor
  · rintro ⟨values, resolved⟩
    have all : ∀ name entry, catalogue.entryOf? name = some entry →
        ∃ value, HasValue catalogue overrides name value :=
      fun _ _ described => exists_hasValue_of_resolveWith resolved described
    exact ⟨acyclic_of_resolveWith resolved, overridesFit_of_hasValue all,
      defaultsFit_of_hasValue all⟩
  · rintro ⟨acyclic, fitting, defaults⟩
    apply exists_resolveWith_of_hasValue acyclic
    · exact nofun
    · exact fun _ _ described => exists_hasValue_of_fit fitting defaults described

/-- Only the entry and the override for each name matter to the values. -/
theorem exists_resolveWith_of_same {catalogue' : Catalogue} {overrides' : Bindings Datum}
    (entries : ∀ name, catalogue'.entryOf? name = catalogue.entryOf? name)
    (supplied : ∀ name, overrides'.find? name = overrides.find? name) {values : Bindings Value}
    (resolved : resolveWith .ignore catalogue overrides = .ok values) :
    ∃ values', resolveWith .ignore catalogue' overrides' = .ok values' ∧
      values'.find? = values.find? := by
  have same : ∀ name value, HasValue catalogue' overrides' name value ↔
      HasValue catalogue overrides name value := by
    intro name value
    exact ⟨.congr (fun name => (entries name).symm) fun name => (supplied name).symm,
      .congr entries supplied⟩
  have all : ∀ name entry, catalogue'.entryOf? name = some entry →
      ∃ value, HasValue catalogue' overrides' name value := by
    intro name entry described
    rw [entries] at described
    obtain ⟨value, holds⟩ := exists_hasValue_of_resolveWith resolved described
    exact ⟨value, (same name value).mpr holds⟩
  have acyclic : catalogue'.Acyclic := by
    rw [Catalogue.Acyclic, Catalogue.refersTo_congr entries]
    exact (resolveWith_ignore_isOk_iff.mp ⟨values, resolved⟩).1
  obtain ⟨values', resolved'⟩ := resolveWith_ignore_isOk_iff.mpr
    ⟨acyclic, overridesFit_of_hasValue all, defaultsFit_of_hasValue all⟩
  refine ⟨values', resolved', ?_⟩
  funext name
  apply Option.ext
  intro value
  rw [find?_eq_some_iff_hasValue resolved', find?_eq_some_iff_hasValue resolved, same]

/-- **The values are the only solution.** If undeclared overrides are dropped, there are values
exactly if the references are acyclic, every override fits, and every variable that is not
overridden has a default that fits. They have each name of an entry once and are the only map that
solves the equations of the entries. Only the last entry for a name and the override for it count,
so an order of entries with distinct names, or of overrides, does not matter. -/
theorem resolve_ignore_solves (catalogue : Catalogue) (overrides : Bindings Datum) :
    ((∃ values, resolve .ignore catalogue (.data overrides) = .ok values) ↔
      catalogue.Acyclic ∧ OverridesFit catalogue overrides ∧ DefaultsFit catalogue overrides) ∧
    (∀ values, resolve .ignore catalogue (.data overrides) = .ok values →
      values.names.Nodup ∧
      (∀ name, name ∈ values.names ↔ ∃ entry ∈ catalogue, entry.name = name) ∧
      Solves catalogue overrides values.find? ∧
      ∀ lookup, Solves catalogue overrides lookup → lookup = values.find?) ∧
    (∀ catalogue' overrides', (∀ name, catalogue'.entryOf? name = catalogue.entryOf? name) →
      overrides'.entries.Perm overrides.entries →
      ∀ values, resolve .ignore catalogue (.data overrides) = .ok values →
        ∃ values', resolve .ignore catalogue' (.data overrides') = .ok values' ∧
          values'.find? = values.find?) ∧
    ∀ catalogue' : Catalogue, catalogue'.Perm catalogue → (catalogue.map Entry.name).Nodup →
      ∀ name, catalogue'.entryOf? name = catalogue.entryOf? name := by
  have plain : ∀ catalogue overrides, resolve .ignore catalogue (.data overrides) =
      resolveWith .ignore catalogue overrides := fun _ _ => rfl
  simp only [plain]
  refine ⟨resolveWith_ignore_isOk_iff, ?_, ?_, ?_⟩
  · intro values resolved
    exact ⟨values.nodup_names, fun _ => mem_names_resolveWith_iff resolved,
      solves_resolveWith resolved, fun _ solves => solves.eq_find? resolved⟩
  · intro catalogue' overrides' entries reordered values resolved
    exact exists_resolveWith_of_same entries (Bindings.find?_eq_of_perm reordered) resolved
  · intro catalogue' reordered distinct
    exact Catalogue.entryOf?_eq_of_perm distinct reordered

end EditableTemplate.Resolution
