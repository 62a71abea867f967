import EditableTemplate.Proofs.Catalogue.Reference
import EditableTemplate.Proofs.Dependency.Filling
import EditableTemplate.Proofs.Except
import EditableTemplate.Proofs.Value

/-!
# Soundness of the catalogue

`Draft.HasEntry` says which entry a draft comes to, without an order: its kind is the declared one
or that of its default, a literal default is retagged to it, and a default may refer only to a
variable of an acceptable kind. A collected catalogue has exactly these entries
(`Catalogue.Collects`). So its names are distinct, its literal defaults belong to their kinds, its
references go to entries of acceptable kinds, and no chain of references goes round in a circle
(`Catalogue.Sound`).
-/

namespace EditableTemplate

namespace Draft

variable {drafts : Bindings Draft}

/-- The entry of a variable. -/
inductive HasEntry (drafts : Bindings Draft) : String → Entry → Prop
  | bare {name : String} {draft : Draft} (drafted : drafts.find? name = some draft)
      (default : draft.default = none) :
      HasEntry drafts name ⟨name, draft.kind.getD .string, draft.label, none, draft.offset⟩
  | literal {name : String} {draft : Draft} {given value : Value}
      (drafted : drafts.find? name = some draft) (default : draft.default = some (.literal given))
      (fits : given.check name (draft.kind.getD given.kind) = .ok value) :
      HasEntry drafts name
        ⟨name, draft.kind.getD given.kind, draft.label, some (.literal value), draft.offset⟩
  | reference {name target : String} {draft : Draft} {entry : Entry}
      (drafted : drafts.find? name = some draft)
      (default : draft.default = some (.reference target)) (known : HasEntry drafts target entry)
      (accepts : (draft.kind.getD entry.kind).accepts entry.kind = true) :
      HasEntry drafts name
        ⟨name, draft.kind.getD entry.kind, draft.label, some (.reference target), draft.offset⟩

theorem HasEntry.name_eq {name : String} {entry : Entry} (holds : HasEntry drafts name entry) :
    entry.name = name := by
  cases holds <;> rfl

theorem HasEntry.mem_names {name : String} {entry : Entry} (holds : HasEntry drafts name entry) :
    name ∈ drafts.names := by
  cases holds with
  | bare drafted _ => exact Bindings.mem_names_of_find? drafted
  | literal drafted _ _ => exact Bindings.mem_names_of_find? drafted
  | reference drafted _ _ _ => exact Bindings.mem_names_of_find? drafted

/-- A variable has one entry at most. -/
theorem HasEntry.unique {name : String} {first second : Entry}
    (left : HasEntry drafts name first) (right : HasEntry drafts name second) :
    first = second := by
  induction left generalizing second with
  | bare drafted default =>
      cases right with
      | bare drafted' _ =>
          obtain rfl := Option.some.inj (drafted.symm.trans drafted')
          rfl
      | literal drafted' default' _ =>
          obtain rfl := Option.some.inj (drafted.symm.trans drafted')
          cases default.symm.trans default'
      | reference drafted' default' _ _ =>
          obtain rfl := Option.some.inj (drafted.symm.trans drafted')
          cases default.symm.trans default'
  | literal drafted default fits =>
      cases right with
      | bare drafted' default' =>
          obtain rfl := Option.some.inj (drafted.symm.trans drafted')
          cases default.symm.trans default'
      | literal drafted' default' fits' =>
          obtain rfl := Option.some.inj (drafted.symm.trans drafted')
          cases default.symm.trans default'
          rw [Except.ok.inj (fits.symm.trans fits')]
      | reference drafted' default' _ _ =>
          obtain rfl := Option.some.inj (drafted.symm.trans drafted')
          cases default.symm.trans default'
  | reference drafted default _ _ ih =>
      cases right with
      | bare drafted' default' =>
          obtain rfl := Option.some.inj (drafted.symm.trans drafted')
          cases default.symm.trans default'
      | literal drafted' default' _ =>
          obtain rfl := Option.some.inj (drafted.symm.trans drafted')
          cases default.symm.trans default'
      | reference drafted' default' known' _ =>
          obtain rfl := Option.some.inj (drafted.symm.trans drafted')
          cases default.symm.trans default'
          rw [ih known']

/-- A settled draft is the entry of its variable, whatever else has been settled. -/
theorem hasEntry_of_settle {entries : Bindings Entry} {done : List String} {name : String}
    {draft : Draft} {entry : Entry} (drafted : drafts.find? name = some draft)
    (filled : Bindings.Filled (HasEntry drafts) done entries)
    (settled : settle name draft entries = .ok entry) : HasEntry drafts name entry := by
  cases default : draft.default with
  | none =>
      simp only [settle, settleDefault, default] at settled
      rw [← Except.ok.inj settled]
      exact .bare drafted default
  | some given =>
      cases given with
      | literal value =>
          cases checked : value.check name (draft.kind.getD value.kind) with
          | error failure =>
              simp only [settle, settleDefault, default, settleLiteral, checked] at settled
              cases settled
          | ok result =>
              simp only [settle, settleDefault, default, settleLiteral, checked] at settled
              rw [← Except.ok.inj settled]
              exact .literal drafted default checked
      | reference target =>
          cases found : entries.find? target with
          | none =>
              simp only [settle, settleDefault, default, found] at settled
              cases settled
          | some other =>
              simp only [settle, settleDefault, default, found, settleReference] at settled
              split at settled
              · rename_i accepts
                have known := filled.holds target other found
                rw [← Except.ok.inj settled, known.name_eq]
                exact .reference drafted default known accepts
              · cases settled

theorem names_graph (drafts : Bindings Draft) : (graph drafts).names = drafts.names := by
  rw [graph, DependencyGraph.names_ofDefaults, Bindings.names_map]

/-- The entry of a name, given those of the names before it. A name without a draft has none. -/
def settleName (drafts : Bindings Draft) (entries : Bindings Entry) (name : String) :
    Except Failure Entry :=
  match drafts.find? name with
  | some draft => settle name draft entries
  | none => .error (.unresolved name)

/-- Settling drafts in order gives all variables their entries, or those before the first draft that
can not be settled. -/
theorem foldlM_settleNext {order : List String} (scheduled : (graph drafts).schedule = .ok order) :
    (∃ entries, order.foldlM (settleNext drafts) Bindings.empty = .ok entries ∧
      Bindings.Filled (HasEntry drafts) order entries) ∨
    ∃ before name after entries draft failure, order = before ++ name :: after ∧
      Bindings.Filled (HasEntry drafts) before entries ∧ drafts.find? name = some draft ∧
      settle name draft entries = .error failure ∧
      order.foldlM (settleNext drafts) Bindings.empty = .error failure := by
  obtain ⟨same, _⟩ := DependencyGraph.perm_names_of_schedule scheduled
  have known : ∀ name ∈ order, ∃ draft, drafts.find? name = some draft := by
    intro name member
    rw [← Bindings.mem_names_iff, ← names_graph, ← same.mem_iff]
    exact member
  have steps : ∀ entries, ∀ name ∈ order,
      settleNext drafts entries name = (settleName drafts entries name).map (entries.put name) := by
    intro entries name member
    obtain ⟨draft, drafted⟩ := known name member
    simp only [settleNext, drafted, settleName]
  have sound : ∀ before name after entries entry, order = before ++ name :: after →
      Bindings.Filled (HasEntry drafts) before entries →
      settleName drafts entries name = .ok entry → HasEntry drafts name entry := by
    intro before name after entries entry split filled computed
    obtain ⟨draft, drafted⟩ := known name (by rw [split]; simp)
    simp only [settleName, drafted] at computed
    exact hasEntry_of_settle drafted filled computed
  have initial : Bindings.Filled (HasEntry drafts) [] Bindings.empty := Bindings.filled_empty
  have distinct : ([] ++ order).Nodup := same.nodup_iff.mpr (Bindings.nodup_names _)
  rcases Bindings.foldlM_filled order [] Bindings.empty initial distinct steps sound with
    ⟨result, ran, filled⟩ | ⟨before, name, after, entries, failure, split, _, filled, failed, ended⟩
  · exact .inl ⟨result, ran, filled⟩
  · obtain ⟨draft, drafted⟩ := known name (by rw [split]; simp)
    simp only [settleName, drafted] at failed
    exact .inr ⟨before, name, after, entries, draft, failure, split, filled, drafted, failed, ended⟩

/-- Settling drafts in order gives the entries of their variables. -/
theorem filled_foldlM_settleNext {order : List String} {entries : Bindings Entry}
    (scheduled : (graph drafts).schedule = .ok order)
    (settled : order.foldlM (settleNext drafts) Bindings.empty = .ok entries) :
    Bindings.Filled (HasEntry drafts) order entries := by
  rcases foldlM_settleNext scheduled with
    ⟨result, ran, filled⟩ | ⟨_, _, _, _, _, _, _, _, _, _, failed⟩
  · rw [Except.ok.inj (settled.symm.trans ran)]
    exact filled
  · cases settled.symm.trans failed

end Draft

namespace Catalogue

variable {catalogue : Catalogue} {drafts : Bindings Draft}

/-- A catalogue is what the drafts come to: it has their names in their order and their entries, and
their references do not go round in a circle. -/
structure Collects (drafts : Bindings Draft) (catalogue : Catalogue) : Prop where
  names : catalogue.map Entry.name = drafts.names
  entries : ∀ name entry,
    catalogue.entryOf? name = some entry ↔ Draft.HasEntry drafts name entry
  acyclic : (Draft.graph drafts).Acyclic

/-- A row of entries of which each has the name that it was found under. -/
theorem map_name_filterMap {entries : Bindings Entry} (names : List String)
    (found : ∀ name ∈ names, ∃ entry, entries.find? name = some entry ∧ entry.name = name) :
    (names.filterMap entries.find?).map Entry.name = names := by
  induction names with
  | nil => rfl
  | cons name rest ih =>
      obtain ⟨entry, stored, named⟩ := found name List.mem_cons_self
      rw [List.filterMap_cons_some stored, List.map_cons, named,
        ih fun other member => found other (List.mem_cons_of_mem _ member)]

/-- Collecting gathers drafts, checks what they refer to, and settles them in order. -/
theorem exists_settled_of_collect {policy : MergePolicy} {document : Document}
    (collected : collect policy document = .ok catalogue) :
    ∃ drafts order entries, Draft.gather policy document.mentions = .ok drafts ∧
      Draft.checkReferences document drafts = .ok () ∧
      (Draft.graph drafts).schedule = .ok order ∧
      order.foldlM (Draft.settleNext drafts) Bindings.empty = .ok entries ∧
      catalogue = drafts.names.filterMap entries.find? := by
  obtain ⟨drafts, gathered, rest⟩ := Except.bind_eq_ok.mp collected
  obtain ⟨_, checked, rest⟩ := Except.bind_eq_ok.mp rest
  obtain ⟨order, scheduled, rest⟩ := Except.bind_eq_ok.mp rest
  obtain ⟨entries, settled, whole⟩ := Except.bind_eq_ok.mp rest
  exact ⟨drafts, order, entries, gathered, checked, scheduled, settled,
    (Except.ok.inj whole).symm⟩

/-- Entries that were settled in order are the catalogue of their drafts. -/
theorem collects_of_filled {order : List String} {entries : Bindings Entry}
    (scheduled : (Draft.graph drafts).schedule = .ok order)
    (filled : Bindings.Filled (Draft.HasEntry drafts) order entries) :
    Collects drafts (drafts.names.filterMap entries.find?) := by
  have same : order.Perm drafts.names := by
    rw [← Draft.names_graph]
    exact (DependencyGraph.perm_names_of_schedule scheduled).1
  have names : (drafts.names.filterMap entries.find?).map Entry.name = drafts.names := by
    apply map_name_filterMap
    intro name member
    obtain ⟨entry, stored, holds⟩ := filled.exists_of_mem (same.mem_iff.mpr member)
    exact ⟨entry, stored, holds.name_eq⟩
  refine ⟨names, ?_, DependencyGraph.schedule_isOk_iff_acyclic.mp ⟨order, scheduled⟩⟩
  intro name entry
  constructor
  · intro described
    obtain ⟨other, _, stored⟩ := List.mem_filterMap.mp (mem_of_entryOf? described)
    have holds := filled.holds other entry stored
    rwa [← name_of_entryOf? described, holds.name_eq]
  · intro holds
    have member := same.mem_iff.mpr holds.mem_names
    have stored := (filled.find?_eq_some_iff member fun _ _ => Draft.HasEntry.unique).mpr holds
    rw [← holds.name_eq]
    apply entryOf?_name_of_mem
    · rw [names]
      exact drafts.nodup_names
    · exact List.mem_filterMap.mpr ⟨name, holds.mem_names, stored⟩

/-- A collected catalogue is what the drafts of its document come to. -/
theorem collects_of_collect {policy : MergePolicy} {document : Document}
    (collected : collect policy document = .ok catalogue) :
    ∃ drafts, Draft.gather policy document.mentions = .ok drafts ∧
      Draft.checkReferences document drafts = .ok () ∧ Collects drafts catalogue := by
  obtain ⟨drafts, order, entries, gathered, checked, scheduled, settled, rfl⟩ :=
    exists_settled_of_collect collected
  have filled := Draft.filled_foldlM_settleNext scheduled settled
  exact ⟨drafts, gathered, checked, collects_of_filled scheduled filled⟩

/-- The names of a catalogue are distinct, literal defaults belong to the kinds of their entries,
references go to entries of acceptable kinds, and no chain of them goes round in a circle. -/
structure Sound (catalogue : Catalogue) : Prop where
  distinct : (catalogue.map Entry.name).Nodup
  literal : ∀ entry ∈ catalogue, ∀ value, entry.default = some (.literal value) →
    value.kind = entry.kind
  reference : ∀ entry ∈ catalogue, ∀ target, entry.default = some (.reference target) →
    ∃ other ∈ catalogue, other.name = target ∧ entry.kind.accepts other.kind = true
  acyclic : catalogue.Acyclic

/-- A reference between entries is a dependency between drafts. -/
theorem Collects.links_of_refersTo (collects : Collects drafts catalogue) {name target : String}
    (refers : catalogue.RefersTo name target) : (Draft.graph drafts).Links name target := by
  obtain ⟨⟨entry, described, default⟩, member⟩ := refers
  obtain ⟨other, described'⟩ := exists_entryOf?_iff.mpr member
  have bound : target ∈ drafts.names := ((collects.entries target other).mp described').mem_names
  refine ⟨?_, ?_⟩
  · rw [Draft.graph, DependencyGraph.depends_ofDefaults_iff, Bindings.find?_map]
    cases (collects.entries name entry).mp described with
    | bare _ _ => cases default
    | literal _ _ _ => cases default
    | reference drafted default' _ _ =>
        cases default
        rw [drafted, Option.map_some, default']
  · rw [Draft.names_graph]
    exact bound

/-- What is collected from drafts is sound. -/
theorem Collects.sound (collects : Collects drafts catalogue) : catalogue.Sound := by
  have distinct : (catalogue.map Entry.name).Nodup := by
    rw [collects.names]
    exact drafts.nodup_names
  have meaning : ∀ entry ∈ catalogue, ∃ name, Draft.HasEntry drafts name entry :=
    fun entry member =>
      ⟨entry.name, (collects.entries _ _).mp (entryOf?_name_of_mem distinct member)⟩
  refine ⟨distinct, ?_, ?_, ?_⟩
  · intro entry member value default
    obtain ⟨name, holds⟩ := meaning entry member
    cases holds with
    | bare _ _ => cases default
    | literal _ _ fits =>
        cases default
        exact Value.kind_of_check fits
    | reference _ _ _ _ => cases default
  · intro entry member target default
    obtain ⟨name, holds⟩ := meaning entry member
    cases holds with
    | bare _ _ => cases default
    | literal _ _ _ => cases default
    | reference _ _ known accepts =>
        cases default
        exact ⟨_, mem_of_entryOf? ((collects.entries _ _).mpr known), known.name_eq, accepts⟩
  · intro name circle
    exact collects.acyclic name
      (Relation.TransGen.mono (fun _ _ => collects.links_of_refersTo) _ _ circle)

/-- Whatever is collected is sound. -/
theorem sound_of_collect {policy : MergePolicy} {document : Document}
    (collected : collect policy document = .ok catalogue) : catalogue.Sound := by
  obtain ⟨_, _, _, collects⟩ := collects_of_collect collected
  exact collects.sound

end Catalogue

end EditableTemplate
