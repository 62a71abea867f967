import EditableTemplate.Proofs.Catalogue.Reference
import EditableTemplate.Proofs.Dependency.Filling

/-!
# What resolving means

`Resolution.HasValue` says what the value of a variable is, without an order: that of its override,
of its literal default, or of the variable that its default refers to, retagged to the kind of the
variable. A variable has one value at most (`Resolution.HasValue.unique`). Resolving computes the
values in the order of the references, so all that a variable refers to is there before it is
reached; it ends in one of the ways of `Resolution.Outcome`.
-/

namespace EditableTemplate.Resolution

variable {catalogue : Catalogue} {overrides : Bindings Datum} {policy : UnknownPolicy}

/-- The value of a variable. -/
inductive HasValue (catalogue : Catalogue) (overrides : Bindings Datum) : String → Value → Prop
  | override {name : String} {entry : Entry} {datum : Datum} {value : Value}
      (described : catalogue.entryOf? name = some entry)
      (overridden : overrides.find? name = some datum)
      (fits : datum.check name entry.kind = .ok value) : HasValue catalogue overrides name value
  | literal {name : String} {entry : Entry} {given value : Value}
      (described : catalogue.entryOf? name = some entry) (free : overrides.find? name = none)
      (default : entry.default = some (.literal given))
      (fits : given.check name entry.kind = .ok value) : HasValue catalogue overrides name value
  | reference {name target : String} {entry : Entry} {given value : Value}
      (described : catalogue.entryOf? name = some entry) (free : overrides.find? name = none)
      (default : entry.default = some (.reference target))
      (known : HasValue catalogue overrides target given)
      (fits : given.check name entry.kind = .ok value) : HasValue catalogue overrides name value

/-- Only variables of the catalogue have a value. -/
theorem HasValue.exists_entry {name : String} {value : Value}
    (holds : HasValue catalogue overrides name value) :
    ∃ entry, catalogue.entryOf? name = some entry := by
  cases holds with
  | override described _ _ => exact ⟨_, described⟩
  | literal described _ _ _ => exact ⟨_, described⟩
  | reference described _ _ _ _ => exact ⟨_, described⟩

/-- A variable has one value at most. -/
theorem HasValue.unique {name : String} {first second : Value}
    (left : HasValue catalogue overrides name first)
    (right : HasValue catalogue overrides name second) : first = second := by
  induction left generalizing second with
  | override described overridden fits =>
      cases right with
      | override described' overridden' fits' =>
          obtain rfl := Option.some.inj (described.symm.trans described')
          obtain rfl := Option.some.inj (overridden.symm.trans overridden')
          exact Except.ok.inj (fits.symm.trans fits')
      | literal _ free _ _ => cases overridden.symm.trans free
      | reference _ free _ _ _ => cases overridden.symm.trans free
  | literal described free default fits =>
      cases right with
      | override _ overridden _ => cases free.symm.trans overridden
      | literal described' _ default' fits' =>
          obtain rfl := Option.some.inj (described.symm.trans described')
          cases default.symm.trans default'
          exact Except.ok.inj (fits.symm.trans fits')
      | reference described' _ default' _ _ =>
          obtain rfl := Option.some.inj (described.symm.trans described')
          cases default.symm.trans default'
  | reference described free default _ fits ih =>
      cases right with
      | override _ overridden _ => cases free.symm.trans overridden
      | literal described' _ default' _ =>
          obtain rfl := Option.some.inj (described.symm.trans described')
          cases default.symm.trans default'
      | reference described' _ default' known' fits' =>
          obtain rfl := Option.some.inj (described.symm.trans described')
          cases default.symm.trans default'
          obtain rfl := ih known'
          exact Except.ok.inj (fits.symm.trans fits')

/-- Only the entry and the override for each name matter. -/
theorem HasValue.congr {catalogue' : Catalogue} {overrides' : Bindings Datum}
    (entries : ∀ name, catalogue'.entryOf? name = catalogue.entryOf? name)
    (supplied : ∀ name, overrides'.find? name = overrides.find? name) {name : String}
    {value : Value} (holds : HasValue catalogue overrides name value) :
    HasValue catalogue' overrides' name value := by
  induction holds with
  | override described overridden fits =>
      exact .override ((entries _).trans described) ((supplied _).trans overridden) fits
  | literal described free default fits =>
      exact .literal ((entries _).trans described) ((supplied _).trans free) default fits
  | reference described free default _ fits ih =>
      exact .reference ((entries _).trans described) ((supplied _).trans free) default ih fits

/-- What holds of the literal defaults and of the overrides that fit, and stays when a value is
checked, holds of every value. -/
theorem HasValue.invariant (property : Value → Prop)
    (defaults : ∀ name entry given, catalogue.entryOf? name = some entry →
      entry.default = some (.literal given) → property given)
    (supplied : ∀ name datum declared value, overrides.find? name = some datum →
      datum.check name declared = .ok value → property value)
    (kept : ∀ name given declared value, property given →
      given.check name declared = .ok value → property value)
    {name : String} {value : Value} (holds : HasValue catalogue overrides name value) :
    property value := by
  induction holds with
  | override _ overridden fits => exact supplied _ _ _ _ overridden fits
  | literal described _ default fits => exact kept _ _ _ _ (defaults _ _ _ described default) fits
  | reference _ _ _ _ fits ih => exact kept _ _ _ _ ih fits

/-- A computed value is that of the variable, whatever else has been computed. -/
theorem hasValue_of_value {values : Bindings Value} {done : List String} {name : String}
    {entry : Entry} {result : Value} (described : catalogue.entryOf? name = some entry)
    (filled : Bindings.Filled (HasValue catalogue overrides) done values)
    (computed : value overrides values entry = .ok result) :
    HasValue catalogue overrides name result := by
  have named := Catalogue.name_of_entryOf? described
  unfold value at computed
  rw [named] at computed
  split at computed
  · exact .override described ‹_› computed
  · exact .literal described ‹_› ‹_› computed
  · split at computed
    · exact .reference described ‹_› ‹_› (filled.holds _ _ ‹_›) computed
    · cases computed
  · cases computed

/-- The value of a variable is computed once that of the variable that it refers to is there. -/
theorem value_of_hasValue {values : Bindings Value} {done : List String} {name : String}
    {entry : Entry} {result : Value} (described : catalogue.entryOf? name = some entry)
    (filled : Bindings.Filled (HasValue catalogue overrides) done values)
    (earlier : ∀ target, catalogue.RefersTo name target → target ∈ done)
    (holds : HasValue catalogue overrides name result) :
    value overrides values entry = .ok result := by
  have named := Catalogue.name_of_entryOf? described
  unfold value
  rw [named]
  cases holds with
  | override described' overridden fits =>
      obtain rfl := Option.some.inj (described.symm.trans described')
      rw [overridden]
      exact fits
  | literal described' free default fits =>
      obtain rfl := Option.some.inj (described.symm.trans described')
      rw [free, default]
      exact fits
  | @reference _ target _ given _ described' free default known fits =>
      obtain rfl := Option.some.inj (described.symm.trans described')
      have refers : catalogue.RefersTo name target :=
        ⟨⟨entry, described, default⟩, Catalogue.exists_entryOf?_iff.mp known.exists_entry⟩
      have stored : values.find? target = some given :=
        (filled.find?_eq_some_iff (earlier target refers) fun _ _ => HasValue.unique).mpr known
      rw [free, default]
      simp only [stored]
      exact fits

/-- Overrides for names without an entry do not matter to a value. -/
theorem value_filter {values : Bindings Value} {name : String} {entry : Entry}
    (described : catalogue.entryOf? name = some entry) :
    value (overrides.filter (index catalogue).contains) values entry =
      value overrides values entry := by
  have known : (index catalogue).contains entry.name = true := by
    rw [Bindings.contains_eq_true_iff, Catalogue.mem_names_index_iff,
      Catalogue.name_of_entryOf? described]
    exact ⟨entry, described⟩
  unfold value
  rw [Bindings.find?_filter_of_keep known]

/-- The ways in which resolving ends: an override names no variable, the references go round in a
circle, a variable gets no value after all those before it have theirs, or all have theirs. -/
inductive Outcome (policy : UnknownPolicy) (catalogue : Catalogue) (overrides : Bindings Datum) :
    Except Failure (Bindings Value) → Prop
  | unknown {name : String} (strict : policy = .error) (overridden : name ∈ overrides.names)
      (absent : catalogue.entryOf? name = none) :
      Outcome policy catalogue overrides (.error (.undeclared name none))
  | circle {members : List String} (circle : catalogue.graph.IsCircle members) :
      Outcome policy catalogue overrides (.error (.cycle members))
  | failed {before after : List String} {name : String} {values : Bindings Value} {entry : Entry}
      {failure : Failure} (scheduled : catalogue.graph.schedule = .ok (before ++ name :: after))
      (filled : Bindings.Filled (HasValue catalogue overrides) before values)
      (described : catalogue.entryOf? name = some entry)
      (computed : value overrides values entry = .error failure) :
      Outcome policy catalogue overrides (.error failure)
  | resolved {order : List String} {values : Bindings Value}
      (scheduled : catalogue.graph.schedule = .ok order)
      (filled : Bindings.Filled (HasValue catalogue overrides) order values) :
      Outcome policy catalogue overrides (.ok values)

/-- The value of a name, given those of the names before it. A name without an entry has none. -/
def valueOfName (catalogue : Catalogue) (overrides : Bindings Datum) (values : Bindings Value)
    (name : String) : Except Failure Value :=
  match catalogue.entryOf? name with
  | some entry => value overrides values entry
  | none => .error (.unresolved name)

/-- What has been computed before any name of the order are values of variables. -/
theorem foldlM_resolveNext (overrides : Bindings Datum) {order : List String}
    (scheduled : catalogue.graph.schedule = .ok order) {names after : List String}
    (split : order = names ++ after) :
    (∃ values, names.foldlM (resolveNext (index catalogue)
        (overrides.filter (index catalogue).contains)) Bindings.empty = .ok values ∧
      Bindings.Filled (HasValue catalogue overrides) names values) ∨
    ∃ before name rest values entry failure, names = before ++ name :: rest ∧
      Bindings.Filled (HasValue catalogue overrides) before values ∧
      catalogue.entryOf? name = some entry ∧ value overrides values entry = .error failure ∧
      names.foldlM (resolveNext (index catalogue)
        (overrides.filter (index catalogue).contains)) Bindings.empty = .error failure := by
  obtain ⟨same, _⟩ := DependencyGraph.perm_names_of_schedule scheduled
  have known : ∀ name ∈ names, ∃ entry, catalogue.entryOf? name = some entry := by
    intro name member
    rw [← Catalogue.mem_names_index_iff, ← Catalogue.names_graph, ← same.mem_iff, split]
    exact List.mem_append_left _ member
  have distinct : names.Nodup := by
    have all : order.Nodup := same.nodup_iff.mpr (Bindings.nodup_names _)
    rw [split] at all
    exact (List.nodup_append.mp all).1
  have steps : ∀ values, ∀ name ∈ names,
      resolveNext (index catalogue) (overrides.filter (index catalogue).contains) values name =
        (valueOfName catalogue overrides values name).map (values.put name) := by
    intro values name member
    obtain ⟨entry, described⟩ := known name member
    simp only [resolveNext, Catalogue.find?_index, described, valueOfName]
    rw [value_filter described]
  have sound : ∀ before name rest values result, names = before ++ name :: rest →
      Bindings.Filled (HasValue catalogue overrides) before values →
      valueOfName catalogue overrides values name = .ok result →
      HasValue catalogue overrides name result := by
    intro before name rest values result parts filled computed
    obtain ⟨entry, described⟩ := known name (by rw [parts]; simp)
    simp only [valueOfName, described] at computed
    exact hasValue_of_value described filled computed
  have initial : Bindings.Filled (HasValue catalogue overrides) [] Bindings.empty :=
    Bindings.filled_empty
  rcases Bindings.foldlM_filled names [] Bindings.empty initial distinct steps sound with
    ⟨values, ran, filled⟩ | ⟨before, name, rest, values, failure, parts, _, filled, failed, ended⟩
  · exact .inl ⟨values, ran, filled⟩
  · obtain ⟨entry, described⟩ := known name (by rw [parts]; simp)
    simp only [valueOfName, described] at failed
    exact .inr ⟨before, name, rest, values, entry, failure, parts, filled, described, failed, ended⟩

/-- Resolving has the outcome that catalogue and overrides determine. -/
theorem outcome_resolveWith (policy : UnknownPolicy) (catalogue : Catalogue)
    (overrides : Bindings Datum) :
    Outcome policy catalogue overrides (resolveWith policy catalogue overrides) := by
  have rest : Outcome policy catalogue overrides (do
      let order ← (DependencyGraph.ofDefaults ((index catalogue).map Entry.default)).schedule
      order.foldlM (resolveNext (index catalogue)
        (overrides.filter (index catalogue).contains)) Bindings.empty) := by
    change Outcome policy catalogue overrides (catalogue.graph.schedule >>= _)
    cases scheduled : catalogue.graph.schedule with
    | error failure =>
        obtain ⟨members, rfl, circle⟩ := DependencyGraph.isCircle_of_schedule scheduled
        exact .circle circle
    | ok order =>
        change Outcome policy catalogue overrides (order.foldlM _ _)
        rcases foldlM_resolveNext overrides scheduled (List.append_nil order).symm
          with ⟨values, ran, filled⟩ | ⟨before, name, after, values, entry, failure, split, filled,
            described, failed, ended⟩
        · rw [ran]
          exact .resolved scheduled filled
        · rw [ended]
          rw [split] at scheduled
          exact .failed scheduled filled described failed
  unfold resolveWith
  cases policy with
  | ignore => exact rest
  | error =>
      cases found : overrides.names.find? fun name => !(index catalogue).contains name with
      | none =>
          have allowed : supplied .error (index catalogue) overrides =
              .ok (overrides.filter (index catalogue).contains) := by
            simp [supplied, found]
          simp only [allowed]
          exact rest
      | some name =>
          have refused : supplied .error (index catalogue) overrides =
              .error (.undeclared name none) := by
            simp [supplied, found]
          simp only [refused]
          refine .unknown rfl (List.mem_of_find?_eq_some found) ?_
          have absent := List.find?_some found
          rw [Bool.not_eq_true', ← Bool.not_eq_true, Bindings.contains_eq_true_iff,
            Catalogue.mem_names_index_iff, not_exists] at absent
          exact Option.eq_none_iff_forall_ne_some.mpr absent

end EditableTemplate.Resolution
