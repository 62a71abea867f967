import EditableTemplate.Proofs.Catalogue.Soundness
import EditableTemplate.Proofs.Resolution.Solution

/-!
# Soundness of resolving

The check of kinds when a catalogue is collected and the check of values when it is resolved agree.
Resolving a sound catalogue fails only for the causes of `Resolution.Cause`: the overrides are not
overrides, or name no variable, a variable has neither an override nor a default, an override does
not fit, or a color refers to a string whose value is no color. Each reference is read after it was
written, and every value belongs to the kind of its variable (`Resolution.resolve_collected_sound`).
-/

namespace EditableTemplate.Resolution

variable {catalogue : Catalogue} {overrides : Bindings Datum} {policy : UnknownPolicy}

/-- Why a sound catalogue can not be resolved. -/
inductive Cause (policy : UnknownPolicy) (catalogue : Catalogue) (source : OverrideSource) :
    Failure → Prop
  | invalid {sort : String} (refused : source.normalize = .error (.invalidOverrides sort)) :
      Cause policy catalogue source (.invalidOverrides sort)
  | unknown {overrides : Bindings Datum} {name : String} (normal : source.normalize = .ok overrides)
      (strict : policy = .error) (overridden : name ∈ overrides.names)
      (undeclared : ∀ entry ∈ catalogue, entry.name ≠ name) :
      Cause policy catalogue source (.undeclared name none)
  | missing {overrides : Bindings Datum} {entry : Entry}
      (normal : source.normalize = .ok overrides) (member : entry ∈ catalogue)
      (free : overrides.find? entry.name = none) (default : entry.default = none) :
      Cause policy catalogue source (.unresolved entry.name)
  | override {overrides : Bindings Datum} {entry : Entry} {datum shown : Datum} {found : Found}
      (normal : source.normalize = .ok overrides) (member : entry ∈ catalogue)
      (overridden : overrides.find? entry.name = some datum)
      (refused : datum.check entry.name entry.kind =
        .error (.mismatch entry.name entry.kind found shown)) :
      Cause policy catalogue source (.mismatch entry.name entry.kind found shown)
  | color {overrides : Bindings Datum} {entry target : Entry} {text : CodePoints}
      (normal : source.normalize = .ok overrides) (member : entry ∈ catalogue)
      (free : overrides.find? entry.name = none) (isColor : entry.kind = .color)
      (default : entry.default = some (.reference target.name)) (other : target ∈ catalogue)
      (isString : target.kind = .string)
      (holds : HasValue catalogue overrides target.name (.string text))
      (invalid : Color.ofText? text = none) :
      Cause policy catalogue source (.mismatch entry.name .color (.kind .string) (.text text))

/-- The values that are there when a variable comes up. -/
def ReachedWith (catalogue : Catalogue) (overrides : Bindings Datum) (name : String)
    (values : Bindings Value) : Prop :=
  ∃ before after, catalogue.graph.schedule = .ok (before ++ name :: after) ∧
    before.foldlM (resolveNext (index catalogue) (overrides.filter (index catalogue).contains))
      Bindings.empty = .ok values

/-- The value of a variable belongs to the kind of the variable. -/
theorem HasValue.kind_eq {name : String} {value : Value} {entry : Entry}
    (holds : HasValue catalogue overrides name value)
    (described : catalogue.entryOf? name = some entry) : value.kind = entry.kind := by
  cases holds with
  | override described' _ fits =>
      obtain rfl := Option.some.inj (described.symm.trans described')
      exact Datum.kind_of_check fits
  | literal described' _ _ fits =>
      obtain rfl := Option.some.inj (described.symm.trans described')
      exact Value.kind_of_check fits
  | reference described' _ _ _ fits =>
      obtain rfl := Option.some.inj (described.symm.trans described')
      exact Value.kind_of_check fits

/-- What an entry of a sound catalogue refers to has an entry, which comes before it. -/
theorem exists_value_of_reference (sound : catalogue.Sound) {before after : List String}
    {entry : Entry} {target : String} {values : Bindings Value}
    (scheduled : catalogue.graph.schedule = .ok (before ++ entry.name :: after))
    (filled : Bindings.Filled (HasValue catalogue overrides) before values)
    (member : entry ∈ catalogue) (default : entry.default = some (.reference target)) :
    ∃ other ∈ catalogue, ∃ given, other.name = target ∧ values.find? target = some given ∧
      HasValue catalogue overrides target given ∧ given.kind = other.kind ∧
      entry.kind.accepts other.kind = true := by
  obtain ⟨other, inside, rfl, accepts⟩ := sound.reference entry member target default
  have refers : catalogue.RefersTo entry.name other.name :=
    ⟨⟨entry, Catalogue.entryOf?_name_of_mem sound.distinct member, default⟩, other, inside, rfl⟩
  obtain ⟨given, stored, holds⟩ := filled.exists_of_mem (mem_of_refersTo scheduled refers)
  have kinds := holds.kind_eq (Catalogue.entryOf?_name_of_mem sound.distinct inside)
  exact ⟨other, inside, given, rfl, stored, holds, kinds, accepts⟩

/-- A variable of a sound catalogue gets no value only for one of the causes. -/
theorem cause_of_value_error (sound : catalogue.Sound) {source : OverrideSource}
    (normal : source.normalize = .ok overrides) {before after : List String} {entry : Entry}
    {values : Bindings Value} {failure : Failure}
    (scheduled : catalogue.graph.schedule = .ok (before ++ entry.name :: after))
    (filled : Bindings.Filled (HasValue catalogue overrides) before values)
    (member : entry ∈ catalogue) (failed : value overrides values entry = .error failure) :
    Cause policy catalogue source failure := by
  unfold value at failed
  cases overridden : overrides.find? entry.name with
  | some datum =>
      rw [overridden] at failed
      obtain ⟨found, shown, rfl⟩ := Datum.check_error failed
      exact .override normal member overridden failed
  | none =>
      rw [overridden] at failed
      cases default : entry.default with
      | none =>
          rw [default] at failed
          rw [← Except.error.inj failed]
          exact .missing normal member overridden default
      | some choice =>
          rw [default] at failed
          cases choice with
          | literal given =>
              have kinds := sound.literal entry member given default
              have refused : given.check entry.name entry.kind = .error failure := failed
              rw [← kinds, Value.check_self] at refused
              cases refused
          | reference target =>
              obtain ⟨other, inside, given, rfl, stored, holds, kinds, accepts⟩ :=
                exists_value_of_reference sound scheduled filled member default
              simp only [stored] at failed
              rw [← kinds] at accepts
              obtain ⟨isColor, text, rfl, invalid, rfl⟩ :=
                Value.check_error_of_accepts accepts failed
              exact .color normal member overridden isColor default inside kinds.symm holds invalid

/-- A sound catalogue fails to resolve only for one of the causes. -/
theorem cause_of_resolve_error (sound : catalogue.Sound) {source : OverrideSource}
    {failure : Failure} (failed : resolve policy catalogue source = .error failure) :
    Cause policy catalogue source failure := by
  cases normal : source.normalize with
  | error refusal =>
      have same : resolve policy catalogue source = .error refusal := by
        rw [resolve, normal]
        rfl
      obtain rfl := Except.error.inj (same.symm.trans failed)
      obtain ⟨sort, rfl⟩ := OverrideSource.normalize_error normal
      exact .invalid normal
  | ok overrides =>
      have same : resolve policy catalogue source = resolveWith policy catalogue overrides := by
        rw [resolve, normal]
        rfl
      have outcome := outcome_resolveWith policy catalogue overrides
      rw [← same, failed] at outcome
      cases outcome with
      | unknown strict overridden absent =>
          exact .unknown normal strict overridden (Catalogue.entryOf?_eq_none_iff.mp absent)
      | circle circle =>
          exact (circle.not_acyclic (Catalogue.acyclic_graph_iff.mpr sound.acyclic)).elim
      | failed scheduled filled described computed =>
          rw [← Catalogue.name_of_entryOf? described] at scheduled
          exact cause_of_value_error sound normal scheduled filled
            (Catalogue.mem_of_entryOf? described) computed

/-- Each reference of a sound catalogue is read after it was written. -/
theorem exists_read_of_reachedWith (sound : catalogue.Sound) {name : String}
    {values : Bindings Value} (reached : ReachedWith catalogue overrides name values) :
    ∃ entry, (index catalogue).find? name = some entry ∧
      ∀ target, entry.default = some (.reference target) →
        ∃ given, values.find? target = some given := by
  obtain ⟨before, after, scheduled, ran⟩ := reached
  have listed : name ∈ before ++ name :: after := by simp
  obtain ⟨entry, described⟩ := (mem_schedule_iff scheduled).mp listed
  refine ⟨entry, (Catalogue.find?_index catalogue name).trans described, ?_⟩
  intro target default
  rcases foldlM_resolveNext overrides scheduled rfl with
    ⟨values', ran', filled⟩ | ⟨_, _, _, _, _, _, _, _, _, _, failed⟩
  · obtain rfl := Except.ok.inj (ran.symm.trans ran')
    rw [← Catalogue.name_of_entryOf? described] at scheduled
    obtain ⟨_, _, given, _, stored, _⟩ := exists_value_of_reference sound scheduled filled
      (Catalogue.mem_of_entryOf? described) default
    exact ⟨given, stored⟩
  · cases ran.symm.trans failed

/-- **Resolving a collected catalogue.** Whatever the overrides are, it fails for one of the causes
only, every reference that it reads has been written, and if it succeeds, every variable has a value
of its kind with a content of that kind. -/
theorem resolve_collected_sound {merge : MergePolicy} {document : Document}
    (collected : Catalogue.collect merge document = .ok catalogue) (policy : UnknownPolicy)
    (source : OverrideSource) :
    (∀ failure, resolve policy catalogue source = .error failure →
      Cause policy catalogue source failure) ∧
    (∀ overrides name values, ReachedWith catalogue overrides name values →
      ∃ entry, (index catalogue).find? name = some entry ∧
        ∀ target, entry.default = some (.reference target) →
          ∃ given, values.find? target = some given) ∧
    ∀ values, resolve policy catalogue source = .ok values → ∀ entry ∈ catalogue,
      ∃ value, values.find? entry.name = some value ∧ value.kind = entry.kind ∧
        (Datum.ofValue value).tag entry.kind = .ok value := by
  have sound := Catalogue.sound_of_collect collected
  refine ⟨fun _ => cause_of_resolve_error sound,
    fun _ _ _ => exists_read_of_reachedWith sound, ?_⟩
  intro values resolved entry member
  cases normal : source.normalize with
  | error refusal =>
      rw [resolve, normal] at resolved
      cases resolved
  | ok overrides =>
      rw [resolve, normal] at resolved
      have described := Catalogue.entryOf?_name_of_mem sound.distinct member
      obtain ⟨value, holds⟩ := exists_hasValue_of_resolveWith resolved described
      have kinds := holds.kind_eq described
      refine ⟨value, (find?_eq_some_iff_hasValue resolved).mpr holds, kinds, ?_⟩
      rw [← kinds]
      exact Datum.tag_ofValue value

/-- A document whose accent is a color that a string, declared after it, gives. -/
def accentDocument : Document :=
  ⟨"", [.placeholder (.editable "accent" (some .color) none (some (.reference "base"))) 0 20,
    .placeholder (.declaration "base" .string (some (.literal (.string "red")))) 20 40]⟩

/-- The catalogue of that document. -/
def accentCatalogue : Catalogue :=
  [⟨"accent", .color, none, some (.reference "base"), 0⟩,
    ⟨"base", .string, none, some (.literal (.string "red")), 20⟩]

/-- An override of the string, with blanks around the color. -/
def accentOverrides : OverrideSource :=
  .data (Bindings.ofList [("base", .text " blue ")])

/-- The overridden string makes the accent a color. -/
theorem accent_of_base :
    Catalogue.collect .permissive accentDocument = .ok accentCatalogue ∧
      resolve .ignore accentCatalogue accentOverrides =
        .ok (Bindings.ofList [("base", .string " blue "), ("accent", .color "blue")]) ∧
      ∃ value, (Bindings.ofList [("base", .string " blue "), ("accent", .color "blue")]).find?
          "accent" = some value ∧
        value.kind = .color ∧ (Datum.ofValue value).tag .color = .ok value := by
  have collected : Catalogue.collect .permissive accentDocument = .ok accentCatalogue := by
    with_unfolding_all rfl
  have resolved : resolve .ignore accentCatalogue accentOverrides =
      .ok (Bindings.ofList [("base", .string " blue "), ("accent", .color "blue")]) := by
      with_unfolding_all rfl
  refine ⟨collected, resolved, ?_⟩
  exact (resolve_collected_sound collected .ignore accentOverrides).2.2 _ resolved
    ⟨"accent", .color, none, some (.reference "base"), 0⟩ (List.mem_cons_self ..)

end EditableTemplate.Resolution
