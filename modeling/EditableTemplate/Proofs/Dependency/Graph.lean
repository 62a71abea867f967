import EditableTemplate.Dependency.Graph
import EditableTemplate.Proofs.Bindings
import Mathlib.Data.List.Chain
import Mathlib.Logic.Relation

/-!
# Orders and circles of a dependency graph

Only the dependencies between bound names matter (`DependencyGraph.Links`). A list of names is in
order if each of its names stands after those that it is linked to, and a circle is a row of
distinct names in which each depends on the next and the last on the first. The two exclude each
other: names in order rule out every chain of links from a name to itself
(`DependencyGraph.IsOrdered.acyclic`), which a circle is (`DependencyGraph.IsCircle.not_acyclic`).
-/

namespace EditableTemplate.DependencyGraph

open Relation

variable {graph : DependencyGraph}

/-- A bound name depends on each name of its list. -/
def Depends (graph : DependencyGraph) (name child : String) : Prop :=
  ∃ children, graph.find? name = some children ∧ child ∈ children

/-- A dependency on a name that is bound as well. -/
def Links (graph : DependencyGraph) (name child : String) : Prop :=
  graph.Depends name child ∧ child ∈ graph.names

/-- No chain of links leads from a name to itself. -/
def Acyclic (graph : DependencyGraph) : Prop :=
  ∀ name, ¬ TransGen graph.Links name name

/-- Every name of a list stands after the names that it is linked to. -/
def IsOrdered (graph : DependencyGraph) (order : List String) : Prop :=
  ∀ before name after, order = before ++ name :: after →
    ∀ child, graph.Links name child → child ∈ before

/-- A row of distinct names in which each depends on the next, and the last on the first. -/
structure IsCircle (graph : DependencyGraph) (members : List String) : Prop where
  distinct : members.Nodup
  chain : members.IsChain graph.Depends
  closes : ∃ first last, members.head? = some first ∧ members.getLast? = some last ∧
    graph.Depends last first

theorem Depends.mem_names {name child : String} (depends : graph.Depends name child) :
    name ∈ graph.names := by
  obtain ⟨children, found, _⟩ := depends
  exact Bindings.mem_names_of_find? found

/-- A name at the start of a chain of links is bound. -/
theorem mem_names_of_transGen {name target : String} (path : TransGen graph.Links name target) :
    name ∈ graph.names := by
  obtain ⟨_, link, _⟩ := TransGen.head'_iff.mp path
  exact link.1.mem_names

theorem isOrdered_nil : graph.IsOrdered [] := by
  intro before name after split
  cases before <;> simp at split

/-- A name may come last if the names that it is linked to are there. -/
theorem IsOrdered.concat {order : List String} (ordered : graph.IsOrdered order) {last : String}
    (earlier : ∀ child, graph.Links last child → child ∈ order) :
    graph.IsOrdered (order ++ [last]) := by
  intro before name after split child link
  rcases List.eq_nil_or_concat after with rfl | ⟨inner, final, rfl⟩
  · obtain ⟨rfl, same⟩ := List.append_inj' split rfl
    obtain rfl : last = name := by simpa using same
    exact earlier child link
  · have longer : order ++ [last] = (before ++ name :: inner) ++ [final] := by simpa using split
    obtain ⟨rfl, _⟩ := List.append_inj' longer rfl
    exact ordered before name inner rfl child link

/-- Names in order among which are all bound ones leave no chain of links from a name to itself:
along a chain of links the place in the order goes down. -/
theorem IsOrdered.acyclic {order : List String} (ordered : graph.IsOrdered order)
    (complete : ∀ name ∈ graph.names, name ∈ order) : graph.Acyclic := by
  have one : ∀ name child, graph.Links name child → order.idxOf child < order.idxOf name := by
    intro name child link
    obtain ⟨before, after, split, absent⟩ :=
      List.eq_append_cons_of_mem (complete name link.1.mem_names)
    have earlier := ordered before name after split child link
    rw [split, List.idxOf_append_of_mem earlier, List.idxOf_append_of_notMem absent,
      List.idxOf_cons_self, Nat.add_zero]
    exact List.idxOf_lt_length_of_mem earlier
  have all : ∀ name target, TransGen graph.Links name target →
      order.idxOf target < order.idxOf name := by
    intro name target path
    induction path with
    | single link => exact one _ _ link
    | tail _ link ih => exact Nat.lt_trans (one _ _ link) ih
  exact fun name path => Nat.lt_irrefl _ (all name name path)

/-- A chain of dependencies whose last name depends on a bound name is a chain of links to it. -/
theorem transGen_of_isChain {target : String} (bound : target ∈ graph.names) (rest : List String) :
    ∀ first, (first :: rest).IsChain graph.Depends →
      (∀ last, (first :: rest).getLast? = some last → graph.Depends last target) →
      TransGen graph.Links first target := by
  induction rest with
  | nil =>
      intro first _ closes
      exact .single ⟨closes first rfl, bound⟩
  | cons second rest ih =>
      intro first chain closes
      obtain ⟨depends, chain⟩ := List.isChain_cons_cons.mp chain
      have path := ih second chain fun last final =>
        closes last (by rw [List.getLast?_cons_cons]; exact final)
      exact .head ⟨depends, mem_names_of_transGen path⟩ path

/-- A graph with a circle is not acyclic. -/
theorem IsCircle.not_acyclic {members : List String} (circle : graph.IsCircle members) :
    ¬ graph.Acyclic := by
  intro acyclic
  obtain ⟨first, last, starts, ends, depends⟩ := circle.closes
  obtain ⟨rest, rfl⟩ : ∃ rest, members = first :: rest := by
    cases members with
    | nil => simp at starts
    | cons head rest => exact ⟨rest, by rw [Option.some.inj starts]⟩
  have bound : first ∈ graph.names := by
    cases rest with
    | nil =>
        obtain rfl : first = last := by simpa using ends
        exact depends.mem_names
    | cons second rest => exact (List.isChain_cons_cons.mp circle.chain).1.mem_names
  refine acyclic first (transGen_of_isChain bound rest first circle.chain ?_)
  intro final same
  rw [Option.some.inj (same.symm.trans ends)]
  exact depends

theorem names_ofDefaults (defaults : Bindings (Option Default)) :
    (ofDefaults defaults).names = defaults.names := by
  rw [ofDefaults, Bindings.names_map]

/-- In the graph of some defaults a name depends on what its default refers to. -/
theorem depends_ofDefaults_iff {defaults : Bindings (Option Default)} {name target : String} :
    (ofDefaults defaults).Depends name target ↔
      defaults.find? name = some (some (.reference target)) := by
  simp only [Depends, ofDefaults, Bindings.find?_map, Option.map_eq_some_iff]
  constructor
  · rintro ⟨children, ⟨default, found, rfl⟩, member⟩
    unfold dependencies at member
    split at member
    · rw [found, List.mem_singleton.mp member]
    · cases member
  · intro found
    exact ⟨[target], ⟨_, found, rfl⟩, List.mem_singleton_self target⟩

end EditableTemplate.DependencyGraph
