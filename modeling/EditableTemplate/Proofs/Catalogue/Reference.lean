import EditableTemplate.Proofs.Dependency.Order
import EditableTemplate.Resolution

/-!
# References within a catalogue

A name has the last entry of that name (`Catalogue.entryOf?`), which is the one that its index
finds. The links of the graph of the defaults are the references between the entries
(`Catalogue.links_graph_iff`), whether or not an entry is overridden.
-/

namespace EditableTemplate.Catalogue

open Relation

variable {catalogue : Catalogue}

/-- The entry for a name: of entries with one name the last counts. -/
def entryOf? (catalogue : Catalogue) (name : String) : Option Entry :=
  catalogue.reverse.find? fun entry => entry.name = name

/-- The default of a variable refers to another one, and both have entries. -/
def RefersTo (catalogue : Catalogue) (name target : String) : Prop :=
  (∃ entry, catalogue.entryOf? name = some entry ∧ entry.default = some (.reference target)) ∧
    ∃ entry ∈ catalogue, entry.name = target

/-- No chain of references leads from a variable to itself. -/
def Acyclic (catalogue : Catalogue) : Prop :=
  ∀ name, ¬ TransGen catalogue.RefersTo name name

/-- The graph of the defaults of a catalogue. -/
def graph (catalogue : Catalogue) : DependencyGraph :=
  DependencyGraph.ofDefaults ((Resolution.index catalogue).map Entry.default)

theorem name_of_entryOf? {name : String} {entry : Entry}
    (described : catalogue.entryOf? name = some entry) : entry.name = name := by
  simpa using List.find?_some described

theorem mem_of_entryOf? {name : String} {entry : Entry}
    (described : catalogue.entryOf? name = some entry) : entry ∈ catalogue :=
  List.mem_reverse.mp (List.mem_of_find?_eq_some described)

/-- A name has an entry exactly where the catalogue has one of that name. -/
theorem exists_entryOf?_iff {name : String} :
    (∃ entry, catalogue.entryOf? name = some entry) ↔ ∃ entry ∈ catalogue, entry.name = name := by
  rw [← Option.isSome_iff_exists, entryOf?, List.find?_isSome]
  simp

/-- A name has no entry exactly where none in the catalogue has that name. -/
theorem entryOf?_eq_none_iff {name : String} :
    catalogue.entryOf? name = none ↔ ∀ entry ∈ catalogue, entry.name ≠ name := by
  simp [entryOf?, List.find?_eq_none]

/-- Where no name has two entries, every entry counts. -/
theorem entryOf?_name_of_mem (distinct : (catalogue.map Entry.name).Nodup) {entry : Entry}
    (member : entry ∈ catalogue) : catalogue.entryOf? entry.name = some entry := by
  obtain ⟨found, described⟩ := exists_entryOf?_iff.mpr ⟨entry, member, rfl⟩
  have same : found = entry :=
    List.inj_on_of_nodup_map distinct (mem_of_entryOf? described) member
      (name_of_entryOf? described)
  rw [described, same]

/-- Where no name has two entries, their order does not matter. -/
theorem entryOf?_eq_of_perm {other : Catalogue} (distinct : (catalogue.map Entry.name).Nodup)
    (same : other.Perm catalogue) (name : String) :
    other.entryOf? name = catalogue.entryOf? name := by
  have distinct' : (other.map Entry.name).Nodup := (same.map Entry.name).nodup_iff.mpr distinct
  cases described : catalogue.entryOf? name with
  | none =>
      rw [entryOf?_eq_none_iff] at described ⊢
      exact fun entry member => described entry (same.mem_iff.mp member)
  | some entry =>
      rw [← name_of_entryOf? described]
      exact entryOf?_name_of_mem distinct' (same.mem_iff.mpr (mem_of_entryOf? described))

theorem lookup?_map_name (entries : List Entry) (name : String) :
    Bindings.lookup? name (entries.map fun entry => (entry.name, entry)) =
      entries.find? fun entry => entry.name = name := by
  induction entries with
  | nil => rfl
  | cons entry rest ih =>
      by_cases same : entry.name = name <;> simp [same, Bindings.lookup?, ih]

/-- The index finds the entry of a name. -/
theorem find?_index (catalogue : Catalogue) (name : String) :
    (Resolution.index catalogue).find? name = catalogue.entryOf? name := by
  rw [Resolution.index, Bindings.find?_ofList, ← List.map_reverse, lookup?_map_name]
  rfl

/-- The names of the index are those with an entry. -/
theorem mem_names_index_iff {name : String} :
    name ∈ (Resolution.index catalogue).names ↔ ∃ entry, catalogue.entryOf? name = some entry := by
  simp only [Bindings.mem_names_iff, find?_index]

theorem names_graph (catalogue : Catalogue) :
    catalogue.graph.names = (Resolution.index catalogue).names := by
  rw [graph, DependencyGraph.names_ofDefaults, Bindings.names_map]

/-- A variable depends on the one that its default refers to. -/
theorem depends_graph_iff {name target : String} :
    catalogue.graph.Depends name target ↔
      ∃ entry, catalogue.entryOf? name = some entry ∧ entry.default = some (.reference target) := by
  rw [graph, DependencyGraph.depends_ofDefaults_iff, Bindings.find?_map, find?_index,
    Option.map_eq_some_iff]

/-- The links of the graph of the defaults are the references between entries. -/
theorem links_graph_iff {name target : String} :
    catalogue.graph.Links name target ↔ catalogue.RefersTo name target := by
  rw [DependencyGraph.Links, depends_graph_iff, names_graph, mem_names_index_iff,
    exists_entryOf?_iff, RefersTo]

/-- The graph of a catalogue is acyclic exactly where its references are. -/
theorem acyclic_graph_iff : catalogue.graph.Acyclic ↔ catalogue.Acyclic := by
  have same : catalogue.graph.Links = catalogue.RefersTo := by
    funext name target
    exact propext links_graph_iff
  rw [DependencyGraph.Acyclic, same, Acyclic]

theorem refersTo_congr {other : Catalogue}
    (same : ∀ name, other.entryOf? name = catalogue.entryOf? name) :
    other.RefersTo = catalogue.RefersTo := by
  funext name target
  simp only [RefersTo, ← exists_entryOf?_iff, same]

end EditableTemplate.Catalogue
