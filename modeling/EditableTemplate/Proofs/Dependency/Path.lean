import EditableTemplate.Proofs.Dependency.Order

/-!
# The way to a circle

A walk starts from the bound names in order, and it starts from the next one only when all names
that it started from before are finished (`Walk.Started`). From a finished name every chain of links
ends. So the circle that a walk finds is the one that its path leads to from the first bound name
from which not every chain of links ends (`DependencyGraph.exists_way_of_schedule`).
-/

namespace EditableTemplate

namespace DependencyGraph

variable {graph : DependencyGraph}

/-- A chain of dependencies from a root, first to a circle and then around it. -/
structure IsWayTo (graph : DependencyGraph) (root : String) (lead members : List String) :
    Prop where
  starts : (lead ++ members).head? = some root
  distinct : (lead ++ members).Nodup
  chain : (lead ++ members).IsChain graph.Depends
  circle : graph.IsCircle members

/-- Every chain of links from a name ends. -/
def Ends (graph : DependencyGraph) (name : String) : Prop :=
  Acc (fun child name => graph.Links name child) name

/-- From names in order every chain of links ends: the next name stands before the last one. -/
theorem IsOrdered.ends {order : List String} (ordered : graph.IsOrdered order) {name : String}
    (member : name ∈ order) : graph.Ends name := by
  have all : ∀ count before name after, before.length = count → order = before ++ name :: after →
      graph.Ends name := by
    intro count
    induction count using Nat.strong_induction_on with
    | _ count ih =>
        intro before name after length split
        refine .intro name fun child link => ?_
        obtain ⟨earlier, later, parts⟩ :=
          List.append_of_mem (ordered before name after split child link)
        have shorter : earlier.length < count := by
          rw [← length, parts, List.length_append, List.length_cons]
          omega
        exact ih _ shorter earlier child (later ++ name :: after) rfl (by rw [split, parts]; simp)
  obtain ⟨before, after, split⟩ := List.append_of_mem member
  exact all _ before name after rfl split

end DependencyGraph

namespace Walk

variable {graph : DependencyGraph}

/-- The names that the walk has tried to start from, all finished but for the one at the start of
the path, are those before the roots that are left. -/
def Started (graph : DependencyGraph) (walk : Walk) : Prop :=
  ∃ tried, graph.names = tried ++ (walk.active.getLast?.toList ++ walk.roots) ∧
    ∀ name ∈ tried, name ∈ walk.finished

/-- At its start a walk has tried no root. -/
theorem started_start (graph : DependencyGraph) : (start graph).Started graph :=
  ⟨[], rfl, nofun⟩

/-- A path that is not empty keeps its start when it goes on. -/
theorem getLast?_active_visit {walk : Walk} (name : String) (inside : walk.active ≠ []) :
    (walk.visit graph name).active.getLast? = walk.active.getLast? := by
  unfold visit
  split
  · change (name :: walk.active).getLast? = walk.active.getLast?
    obtain ⟨first, below, same⟩ := List.exists_cons_of_ne_nil inside
    rw [same, List.getLast?_cons_cons]
  · rfl

/-- A visit finishes no name. -/
theorem finished_visit (walk : Walk) (name : String) :
    (walk.visit graph name).finished = walk.finished := by
  unfold visit
  split <;> rfl

theorem roots_visit (walk : Walk) (name : String) :
    (walk.visit graph name).roots = walk.roots := by
  unfold visit
  split <;> rfl

/-- From an empty path the walk starts from the next root or finds it finished. -/
theorem started_visit_root {walk : Walk} {root : String} {roots : List String}
    (started : walk.Started graph) (empty : walk.stack = []) (more : walk.roots = root :: roots) :
    ({ walk with roots := roots }.visit graph root).Started graph := by
  obtain ⟨tried, parts, done⟩ := started
  have idle : walk.active = [] := by rw [active, empty]; rfl
  rw [idle, more] at parts
  unfold visit
  split
  · refine ⟨tried, ?_, done⟩
    rw [parts, active, enter, empty]
    rfl
  · rename_i stale
    have bound : root ∈ graph.names := by simp [parts]
    have finished : root ∈ walk.finished := by
      rw [isFresh_eq_true_iff] at stale
      by_contra unfinished
      exact stale ⟨bound, by simp [active, empty], unfinished⟩
    refine ⟨tried ++ [root], ?_, ?_⟩
    · rw [parts, active, empty]
      simp
    · intro name member
      rcases List.mem_append.mp member with earlier | last
      · exact done name earlier
      · rw [List.mem_singleton.mp last]
        exact finished

/-- If the name that the path started from is finished, so are all that were tried. -/
theorem started_finish {walk : Walk} {name : String} {below : List Frame}
    (started : walk.Started graph) (top : walk.stack = ⟨name, []⟩ :: below) :
    (walk.finish name below).Started graph := by
  obtain ⟨tried, parts, done⟩ := started
  have active : walk.active = name :: below.map Frame.name := by rw [Walk.active, top]; rfl
  have kept : ∀ other ∈ tried, other ∈ walk.finished ++ [name] :=
    fun other member => List.mem_append_left _ (done other member)
  rw [active] at parts
  cases below with
  | nil =>
      refine ⟨tried ++ [name], ?_, ?_⟩
      · rw [parts]
        simp [finish, Walk.active]
      · intro other member
        rcases List.mem_append.mp member with earlier | last
        · exact kept other earlier
        · rw [List.mem_singleton.mp last]
          exact List.mem_append_right _ List.mem_cons_self
  | cons lower below =>
      refine ⟨tried, ?_, kept⟩
      rw [parts, List.map_cons, List.getLast?_cons_cons]
      rfl

/-- A step keeps to the order of the roots. -/
theorem Started.step {walk next : Walk} (started : walk.Started graph)
    (moved : walk.step graph = .running next) : next.Started graph := by
  revert moved
  fun_cases Walk.step graph walk with intro moved
  | case1 => cases moved
  | case2 empty root roots more =>
      cases moved
      exact started_visit_root started empty more
  | case3 name below top =>
      cases moved
      exact started_finish started top
  | case4 => cases moved
  | case5 name child pending below top =>
      cases moved
      obtain ⟨tried, parts, done⟩ := started
      have inside : { walk with stack := ⟨name, pending⟩ :: below }.active ≠ [] := by simp [active]
      refine ⟨tried, ?_, ?_⟩
      · rw [getLast?_active_visit child inside, roots_visit, parts, active, active, top]
        rfl
      · rw [finished_visit]
        exact done

/-- A walk has gone through the roots in order, wherever it is. -/
theorem started_of_reachable {walk : Walk} (reachable : Reachable graph walk) :
    walk.Started graph := by
  induction reachable with
  | start => exact started_start graph
  | step _ moved ih => exact ih.step moved

/-- A walk comes to a circle when its path leads back to one of the names of the path. -/
theorem exists_active_of_cycle {walk : Walk} {members : List String}
    (ended : walk.step graph = .cycle members) :
    ∃ child ∈ walk.active, members = walk.path.dropWhile (· ≠ child) := by
  revert ended
  fun_cases Walk.step graph walk with intro ended
  | case1 => cases ended
  | case2 => cases ended
  | case3 => cases ended
  | case4 name child pending below top onPath =>
      cases ended
      exact ⟨child, by simpa using onPath, rfl⟩
  | case5 => cases ended

/-- The path of a walk that has come to a circle is the way to it. -/
theorem isWayTo_of_cycle {walk : Walk} {members : List String} (coherent : walk.Coherent graph)
    (started : walk.Started graph) (ended : walk.step graph = .cycle members) :
    ∃ tried root rest lead, graph.names = tried ++ root :: rest ∧
      (∀ name ∈ tried, name ∈ walk.finished) ∧ graph.IsWayTo root lead members := by
  obtain ⟨tried, parts, done⟩ := started
  obtain ⟨child, active, segment⟩ := exists_active_of_cycle ended
  have bottom := List.getLast?_eq_some_getLast (List.ne_nil_of_mem active)
  rw [bottom] at parts
  -- cut where the child stands, the path is the lead and then the circle
  have whole : walk.path.takeWhile (· ≠ child) ++ members = walk.path := by
    rw [segment, List.takeWhile_append_dropWhile]
  refine ⟨tried, _, walk.roots, walk.path.takeWhile (· ≠ child), parts, done, ?_, ?_, ?_,
    isCircle_of_cycle coherent ended⟩
  · rw [whole, path, List.head?_reverse, bottom]
  · rw [whole, path, List.nodup_reverse]
    exact (List.nodup_append.mp coherent.distinct).1
  · rw [whole, path, List.isChain_reverse]
    exact coherent.traced.isChain

end Walk

namespace DependencyGraph

variable {graph : DependencyGraph}

/-- A schedule that fails reports the circle to which a way leads from the first bound name from
which not every chain of links ends. -/
theorem exists_way_of_schedule {failure : Failure} (failed : graph.schedule = .error failure) :
    ∃ tried root rest lead members, failure = .cycle members ∧
      graph.names = tried ++ root :: rest ∧ (∀ name ∈ tried, graph.Ends name) ∧
      graph.IsWayTo root lead members := by
  obtain ⟨last, reachable, ⟨_, scheduled, _⟩ | ⟨members, same, ended⟩⟩ :=
    exists_last_of_schedule graph
  · cases scheduled.symm.trans failed
  · have coherent := Walk.coherent_of_reachable reachable
    obtain ⟨tried, root, rest, lead, parts, done, way⟩ :=
      Walk.isWayTo_of_cycle coherent (Walk.started_of_reachable reachable) ended
    refine ⟨tried, root, rest, lead, members, Except.error.inj (failed.symm.trans same), parts, ?_,
      way⟩
    exact fun name member => coherent.ordered.ends (done name member)

end DependencyGraph

end EditableTemplate
