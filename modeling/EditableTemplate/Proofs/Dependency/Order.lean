import EditableTemplate.Proofs.Dependency.Invariant
import Mathlib.Data.List.Perm.Basic
import Mathlib.Order.WellFounded

/-!
# The order of the dependencies

A walk ends after finitely many moves, and it ends in one of two ways. Either it has finished every
bound name, each once and after those that it is linked to, or the path leads back to one of its
names and the part of the path from there on is a circle. So there is an order exactly if no chain
of links leads from a name to itself (`DependencyGraph.schedule_sorts_or_finds_circle`).
-/

namespace EditableTemplate

namespace Walk

variable {graph : DependencyGraph}

/-- A walk can not go on for ever. -/
theorem wellFounded_step (graph : DependencyGraph) :
    WellFounded fun next walk : Walk => walk.step graph = .running next :=
  Subrelation.wf movesLeft_lt_of_step
    (InvImage.wf (fun walk : Walk => walk.movesLeft graph) Nat.lt_wfRel.wf)

/-- The result of a walk is decided by the last state that it passes through. -/
theorem exists_last_of_reachable {walk : Walk} (reachable : Reachable graph walk) :
    ∃ last, Reachable graph last ∧
      ((∃ order, walk.run graph = .ok order ∧ last.step graph = .done order) ∨
        ∃ members, walk.run graph = .error members ∧ last.step graph = .cycle members) := by
  induction walk using Walk.run.induct graph with
  | case1 walk order ended =>
      refine ⟨walk, reachable, .inl ⟨order, ?_, ended⟩⟩
      rw [run]
      split <;> simp_all
  | case2 walk members ended =>
      refine ⟨walk, reachable, .inr ⟨members, ?_, ended⟩⟩
      rw [run]
      split <;> simp_all
  | case3 walk next moved ih =>
      have same : walk.run graph = next.run graph := by
        rw [run]
        split <;> simp_all
      rw [same]
      exact ih (.step reachable moved)

/-- A walk that is done has finished all bound names. -/
theorem perm_names_of_done {walk : Walk} {order : List String} (coherent : walk.Coherent graph)
    (ended : walk.step graph = .done order) :
    order.Perm graph.names ∧ graph.IsOrdered order := by
  revert ended
  fun_cases Walk.step graph walk with
  | case1 empty none =>
      rintro ⟨⟩
      have idle : walk.active = [] := by rw [Walk.active, empty]; rfl
      have distinct := coherent.distinct
      rw [idle, List.nil_append] at distinct
      refine ⟨?_, coherent.ordered⟩
      rw [List.perm_ext_iff_of_nodup distinct graph.nodup_names]
      intro name
      refine ⟨coherent.bound name, fun member => ?_⟩
      rcases coherent.reached name member with waiting | active | done
      · rw [none] at waiting
        cases waiting
      · rw [idle] at active
        cases active
      · exact done
  | case2 => rintro ⟨⟩
  | case3 => rintro ⟨⟩
  | case4 => rintro ⟨⟩
  | case5 => rintro ⟨⟩

/-- The part of a path from one of its names on, if the current name depends on that one. -/
theorem isCircle_dropWhile {walk : Walk} {name child : String} {pending : List String}
    {below : List Frame} (coherent : walk.Coherent graph)
    (top : walk.stack = ⟨name, child :: pending⟩ :: below) (active : child ∈ walk.active) :
    graph.IsCircle (walk.path.dropWhile (· ≠ child)) := by
  obtain ⟨upper, lower, split⟩ := List.append_of_mem active
  have traced := coherent.traced
  have chain : walk.active.IsChain fun upper lower => graph.Depends lower upper := traced.isChain
  have distinct := (List.nodup_append.mp coherent.distinct).1
  rw [split] at chain distinct
  have absent : child ∉ lower := by
    intro member
    have tail := (List.nodup_append.mp distinct).2.1
    exact (List.nodup_cons.mp tail).1 member
  -- the path is the stack from the bottom up, so what is dropped lies below the child
  have segment : walk.path.dropWhile (· ≠ child) = (upper ++ [child]).reverse := by
    have skipped : ∀ other ∈ lower.reverse, decide (other ≠ child) = true := by
      intro other member
      refine decide_eq_true ?_
      rintro rfl
      exact absent (List.mem_reverse.mp member)
    rw [path, split, List.reverse_append, List.reverse_cons, List.append_assoc,
      List.dropWhile_append_of_pos skipped]
    simp
  have initial : upper ++ child :: lower = (upper ++ [child]) ++ lower := by simp
  rw [initial] at chain distinct
  rw [segment]
  refine ⟨?_, List.isChain_reverse.mpr chain.left_of_append, child, name, by simp, ?_, ?_⟩
  · exact List.nodup_reverse.mpr (List.nodup_append.mp distinct).1
  · have current : walk.active.head? = some name := by rw [Walk.active, top]; rfl
    rw [List.getLast?_reverse, ← current, split]
    cases upper <;> rfl
  · rw [top] at traced
    obtain ⟨⟨followed, found, _⟩, _⟩ := traced
    exact ⟨_, found, by simp⟩

/-- What a walk ends with as a circle is one. -/
theorem isCircle_of_cycle {walk : Walk} {members : List String} (coherent : walk.Coherent graph)
    (ended : walk.step graph = .cycle members) : graph.IsCircle members := by
  revert ended
  fun_cases Walk.step graph walk with
  | case1 => rintro ⟨⟩
  | case2 => rintro ⟨⟩
  | case3 => rintro ⟨⟩
  | case4 name child pending below top active =>
      rintro ⟨⟩
      exact isCircle_dropWhile coherent top (by simpa using active)
  | case5 => rintro ⟨⟩

end Walk

namespace DependencyGraph

variable {graph : DependencyGraph}

/-- The last state of the walk through a graph decides its schedule. -/
theorem exists_last_of_schedule (graph : DependencyGraph) :
    ∃ last, Walk.Reachable graph last ∧
      ((∃ order, graph.schedule = .ok order ∧ last.step graph = .done order) ∨
        ∃ members, graph.schedule = .error (.cycle members) ∧
          last.step graph = .cycle members) := by
  have initial : Walk.Reachable graph (Walk.start graph) := .start
  obtain ⟨last, reachable, result⟩ := Walk.exists_last_of_reachable initial
  refine ⟨last, reachable, ?_⟩
  rcases result with ⟨order, ran, ended⟩ | ⟨members, ran, ended⟩
  · refine .inl ⟨order, ?_, ended⟩
    rw [schedule, DependencyGraph.order, ran]
  · refine .inr ⟨members, ?_, ended⟩
    rw [schedule, DependencyGraph.order, ran]

/-- A schedule lists every bound name once, dependencies first. -/
theorem perm_names_of_schedule {order : List String} (scheduled : graph.schedule = .ok order) :
    order.Perm graph.names ∧ graph.IsOrdered order := by
  obtain ⟨last, reachable, ⟨_, same, ended⟩ | ⟨_, failed, _⟩⟩ := exists_last_of_schedule graph
  · obtain rfl := Except.ok.inj (same.symm.trans scheduled)
    exact Walk.perm_names_of_done (Walk.coherent_of_reachable reachable) ended
  · cases failed.symm.trans scheduled

/-- Scheduling fails with a circle of the graph and with nothing else. -/
theorem isCircle_of_schedule {failure : Failure} (failed : graph.schedule = .error failure) :
    ∃ members, failure = .cycle members ∧ graph.IsCircle members := by
  obtain ⟨last, reachable, ⟨_, scheduled, _⟩ | ⟨members, same, ended⟩⟩ :=
    exists_last_of_schedule graph
  · cases scheduled.symm.trans failed
  · obtain rfl := Except.error.inj (same.symm.trans failed)
    exact ⟨members, rfl, Walk.isCircle_of_cycle (Walk.coherent_of_reachable reachable) ended⟩

/-- There is an order exactly if no chain of links leads from a name to itself. -/
theorem schedule_isOk_iff_acyclic :
    (∃ order, graph.schedule = .ok order) ↔ graph.Acyclic := by
  constructor
  · rintro ⟨order, scheduled⟩
    obtain ⟨same, ordered⟩ := perm_names_of_schedule scheduled
    exact ordered.acyclic fun _ member => same.mem_iff.mpr member
  · intro acyclic
    cases result : graph.schedule with
    | ok order => exact ⟨order, rfl⟩
    | error failure =>
        obtain ⟨members, _, circle⟩ := isCircle_of_schedule result
        exact (circle.not_acyclic acyclic).elim

/-- **The schedule of a graph.** The walk ends, and its last state decides the schedule. There is an
order exactly if no chain of links leads from a name to itself; it has every bound name once, each
after those that it is linked to. A failure reports a circle. -/
theorem schedule_sorts_or_finds_circle (graph : DependencyGraph) :
    (WellFounded fun next walk : Walk => walk.step graph = .running next) ∧
      (∃ last, Walk.Reachable graph last ∧
        ((∃ order, graph.schedule = .ok order ∧ last.step graph = .done order) ∨
          ∃ members, graph.schedule = .error (.cycle members) ∧
            last.step graph = .cycle members)) ∧
      ((∃ order, graph.schedule = .ok order) ↔ graph.Acyclic) ∧
      (∀ order, graph.schedule = .ok order → order.Perm graph.names ∧ graph.IsOrdered order) ∧
      ∀ failure, graph.schedule = .error failure →
        ∃ members, failure = .cycle members ∧ members ≠ [] ∧ graph.IsCircle members := by
  refine ⟨Walk.wellFounded_step graph, exists_last_of_schedule graph, schedule_isOk_iff_acyclic,
    fun _ => perm_names_of_schedule, ?_⟩
  intro failure failed
  obtain ⟨members, same, circle⟩ := isCircle_of_schedule failed
  refine ⟨members, same, ?_, circle⟩
  rintro rfl
  obtain ⟨_, _, starts, _⟩ := circle.closes
  cases starts

end DependencyGraph

end EditableTemplate
