import EditableTemplate.Dependency.Graph
import EditableTemplate.Proofs.Bindings
import EditableTemplate.Proofs.Except

/-!
# The walk as a recursion

Depth-first search is usually written as a recursion: to visit a name is to visit all its
dependencies and to finish it then (`DependencyGraph.visit`), and the search visits all bound names
in order (`DependencyGraph.search`). A walk keeps the calls that are going on as its path, and for
each of them the dependencies that are left. So from any state it has a recursion to go on with
(`Walk.resume`), which a move does not change (`Walk.resume_eq_of_step`). The walk from the start
thus does what the search does: it finishes the names in the same order, or ends at the same circle
(`DependencyGraph.schedule_eq_search`).
-/

namespace EditableTemplate

namespace DependencyGraph

variable {graph : DependencyGraph} {path finished : List String} {name : String}

/-- The bound names that are not on a path. -/
def offPath (graph : DependencyGraph) (path : List String) : List String :=
  graph.names.filter fun name => !path.contains name

/-- A path that goes on to a bound name leaves fewer names off it. -/
theorem length_offPath_lt {children : List String} (off : name ∉ path)
    (found : graph.find? name = some children) :
    (graph.offPath (name :: path)).length < (graph.offPath path).length := by
  have fewer : 1 + Walk.total (fun _ => 1) (graph.offPath (name :: path)) ≤
      Walk.total (fun _ => 1) (graph.offPath path) := by
    refine Walk.add_total_filter_le (fun _ => 1) name (Bindings.mem_names_of_find? found) ?_ ?_ ?_
    · intro other
      simp only [List.contains_cons, Bool.not_or, Bool.and_eq_true]
      exact And.right
    · simpa using off
    · simp
  rw [Walk.total_one, Walk.total_one] at fewer
  omega

/-- A visit to a name, given the path that leads to it, the last name first, and the names finished
so far. A name of the path closes a circle, which is the path from there on. A name that is finished
or not bound is passed over. Any other is finished after visits to all its dependencies in order.
-/
def visit (graph : DependencyGraph) (path finished : List String) (name : String) :
    Except (List String) (List String) :=
  if _off : name ∈ path then .error (path.reverse.dropWhile (· ≠ name))
  else if name ∈ finished then .ok finished
  else
    match _found : graph.find? name with
    | none => .ok finished
    | some children =>
      (children.foldlM (visit graph (name :: path)) finished).map (· ++ [name])
termination_by (graph.offPath path).length
decreasing_by exact length_offPath_lt _off _found

/-- Visits to all bound names, in order: the finished names, dependencies first, or the circle that
the first visit to a name of its own path closes. -/
def search (graph : DependencyGraph) : Except (List String) (List String) :=
  graph.names.foldlM (graph.visit []) []

/-- A visit to a name of the path closes a circle. -/
theorem visit_of_mem_path (member : name ∈ path) :
    graph.visit path finished name = .error (path.reverse.dropWhile (· ≠ name)) := by
  rw [visit, dif_pos member]

/-- A visit to a finished name passes over it. -/
theorem visit_of_finished (off : name ∉ path) (member : name ∈ finished) :
    graph.visit path finished name = .ok finished := by
  rw [visit, dif_neg off, if_pos member]

/-- A visit to a name that is not bound passes over it. -/
theorem visit_of_unbound (off : name ∉ path) (unbound : graph.find? name = none) :
    graph.visit path finished name = .ok finished := by
  rw [visit, dif_neg off]
  split
  · rfl
  · split
    · rfl
    · rename_i found
      cases unbound.symm.trans found

/-- A visit to any other name visits its dependencies and then finishes it. -/
theorem visit_of_fresh (off : name ∉ path) (unfinished : name ∉ finished) {children : List String}
    (found : graph.find? name = some children) :
    graph.visit path finished name =
      (children.foldlM (graph.visit (name :: path)) finished).map (· ++ [name]) := by
  rw [visit, dif_neg off, if_neg unfinished]
  split
  · rename_i unbound
    cases found.symm.trans unbound
  · rename_i found'
    cases found.symm.trans found'
    rfl

end DependencyGraph

namespace Walk

variable {graph : DependencyGraph} {walk : Walk} {name : String}

/-- What is left of the recursion whose calls are the names of a path: the visits that each of them
has left, the current one first, with the name finished after them, and then the visits to the
roots. -/
def unwind (graph : DependencyGraph) (roots : List String) :
    List Frame → List String → Except (List String) (List String)
  | [], finished => roots.foldlM (graph.visit []) finished
  | ⟨name, pending⟩ :: below, finished => do
    let finished ← pending.foldlM (graph.visit (name :: below.map Frame.name)) finished
    unwind graph roots below (finished ++ [name])

/-- What is left of the recursion in a state of the walk. -/
def resume (graph : DependencyGraph) (walk : Walk) : Except (List String) (List String) :=
  unwind graph walk.roots walk.stack walk.finished

/-- The walk may do a visit at once: to go on to a fresh name is to begin with its dependencies. -/
theorem resume_visit (off : name ∉ walk.active) :
    (walk.visit graph name).resume graph =
      graph.visit walk.active walk.finished name >>= fun finished =>
        { walk with finished := finished }.resume graph := by
  unfold visit
  split
  · rename_i fresh
    simp only [isFresh, Bool.and_eq_true, Bool.not_eq_true', Bool.or_eq_false_iff,
      Bindings.contains_eq_true_iff] at fresh
    obtain ⟨bound, _, unfinished⟩ := fresh
    obtain ⟨children, found⟩ := Bindings.mem_names_iff.mp bound
    rw [DependencyGraph.visit_of_fresh off (by simpa using unfinished) found]
    simp only [resume, enter, unwind, found, Option.getD_some]
    change children.foldlM (graph.visit (name :: walk.active)) walk.finished >>= _ = _
    cases children.foldlM (graph.visit (name :: walk.active)) walk.finished <;> rfl
  · rename_i stale
    have skipped : graph.visit walk.active walk.finished name = .ok walk.finished := by
      cases found : graph.find? name with
      | none => exact DependencyGraph.visit_of_unbound off found
      | some children =>
          refine DependencyGraph.visit_of_finished off ?_
          by_contra unfinished
          exact stale (by simp [isFresh, Bindings.mem_names_of_find? found, off, unfinished])
    rw [skipped]
    rfl

/-- A move does what the recursion does next. -/
theorem resume_eq_of_step (graph : DependencyGraph) (walk : Walk) :
    walk.resume graph =
      match walk.step graph with
      | .running next => next.resume graph
      | .done order => .ok order
      | .cycle members => .error members := by
  fun_cases step graph walk with
  | case1 empty none =>
      rw [resume, empty, none]
      rfl
  | case2 empty root roots more =>
      have off : root ∉ { walk with roots := roots }.active := by simp [active, empty]
      -- the visit that the walk begins is the first one that is left to the roots
      simp only [resume_visit off]
      simp only [resume, more, empty, unwind, List.foldlM_cons, active, List.map_nil]
  | case3 name below top =>
      simp only [resume, top, unwind, finish, List.foldlM_nil]
      rfl
  | case4 name child pending below top onPath =>
      have member : child ∈ walk.active := by simpa using onPath
      have active : walk.active = name :: below.map Frame.name := by rw [Walk.active, top]; rfl
      simp only [resume, top, unwind, List.foldlM_cons, ← active,
        DependencyGraph.visit_of_mem_path member]
      rfl
  | case5 name child pending below top offPath =>
      have off : child ∉ { walk with stack := ⟨name, pending⟩ :: below }.active := by
        simpa [active, top] using offPath
      -- the visit that the walk begins is the first one that is left to the name on top
      simp only [resume_visit off]
      simp only [resume, top, unwind, List.foldlM_cons, active, List.map_cons, bind_assoc]

/-- From any state the walk comes to what is left of the recursion. -/
theorem run_eq_resume (graph : DependencyGraph) (walk : Walk) :
    walk.run graph = walk.resume graph := by
  induction walk using Walk.run.induct graph with
  | case1 walk order ended =>
      rw [run, resume_eq_of_step]
      split <;> simp_all
  | case2 walk members ended =>
      rw [run, resume_eq_of_step]
      split <;> simp_all
  | case3 walk next moved ih =>
      rw [run, resume_eq_of_step]
      split <;> simp_all

end Walk

namespace DependencyGraph

/-- The walk, step by step, gives what the recursive search does. -/
theorem order_eq_search (graph : DependencyGraph) : graph.order = graph.search :=
  Walk.run_eq_resume graph (Walk.start graph)

/-- **The schedule is that of a recursive search.** For any graph the walk along a path gives what
the recursion gives: the bound names in the order in which the recursion finishes them, or as a
failure the part of its path from the name on that it first comes back to. -/
theorem schedule_eq_search (graph : DependencyGraph) :
    graph.schedule = graph.search.mapError Failure.cycle := by
  rw [schedule, order_eq_search]
  cases graph.search <;> rfl

/-- A name stands twice among the dependencies, one is not bound, and `d` leads into a circle. -/
example :
    search (Bindings.ofList [("a", ["c", "x", "b", "c"]), ("b", ["c"]), ("c", [])]) =
        .ok ["c", "b", "a"] ∧
      search (Bindings.ofList [("c", []), ("d", ["c", "e"]), ("e", ["f"]), ("f", ["c", "e"])]) =
        .error ["e", "f"] := by
  decide +kernel

end DependencyGraph

end EditableTemplate
