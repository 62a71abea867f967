import EditableTemplate.Bindings

/-!
# Walking a dependency graph

A graph binds each name to the names it depends on; names that are not bound do not matter. The walk
goes depth first, from the bound names in order and along the dependencies of each in order, and
finishes a name when all its dependencies are finished. Its state is a `Walk`: the names still to
start from, the path from a start to the current name with the dependencies that each name of the
path has left to follow, and the finished names. `Walk.step` makes one move, which either ends the
walk or leaves fewer moves to be made (`Walk.movesLeft_lt_of_step`), and `DependencyGraph.order`
makes all of them: the result is the finished names, dependencies first, or the circle that was
found.
-/

namespace EditableTemplate

/-- Each name with the names it depends on. -/
abbrev DependencyGraph := Bindings (List String)

/-- A name of the path and the dependencies that are left to follow from it. -/
structure Frame where
  /-- The name. -/
  name : String
  /-- The dependencies not yet followed. -/
  pending : List String
  deriving DecidableEq, Repr

/-- The state of a walk. -/
structure Walk where
  /-- The names from which the walk has not yet tried to start. -/
  roots : List String
  /-- The path, the current name first. -/
  stack : List Frame
  /-- The finished names, in the order in which they were finished. -/
  finished : List String
  deriving DecidableEq, Repr

namespace Walk

/-- The names of the path, the current one first. -/
def active (walk : Walk) : List String :=
  walk.stack.map Frame.name

/-- The path from its start to the current name. -/
def path (walk : Walk) : List String :=
  walk.active.reverse

/-- Whether a name has not been reached: it is bound, not on the path and not finished. -/
def isFresh (graph : DependencyGraph) (walk : Walk) (name : String) : Bool :=
  graph.contains name && !(walk.active.contains name || walk.finished.contains name)

/-- The walk after it has gone on to a name. -/
def enter (graph : DependencyGraph) (walk : Walk) (name : String) : Walk :=
  { walk with stack := ⟨name, (graph.find? name).getD []⟩ :: walk.stack }

/-- The walk after the current name, with the path below it, is finished. -/
def finish (walk : Walk) (name : String) (below : List Frame) : Walk :=
  { walk with stack := below, finished := walk.finished ++ [name] }

/-- What a move leads to. -/
inductive Next
  /-- The walk goes on. -/
  | running (walk : Walk)
  /-- All names are finished, in this order. -/
  | done (order : List String)
  /-- The path leads back to one of its names. -/
  | cycle (members : List String)

/-- The walk goes on to a name if it is fresh and otherwise passes it over. -/
def visit (graph : DependencyGraph) (walk : Walk) (name : String) : Walk :=
  if walk.isFresh graph name then walk.enter graph name else walk

/-- One move: start from the next name, finish the current one, or follow its next dependency. -/
def step (graph : DependencyGraph) (walk : Walk) : Next :=
  match walk.stack with
  | [] =>
    match walk.roots with
    | [] => .done walk.finished
    | root :: roots => .running ({ walk with roots := roots }.visit graph root)
  | ⟨name, []⟩ :: below => .running (walk.finish name below)
  | ⟨name, child :: pending⟩ :: below =>
    if walk.active.contains child then .cycle (walk.path.dropWhile (· ≠ child))
    else .running ({ walk with stack := ⟨name, pending⟩ :: below }.visit graph child)

/-- The bound names that have not been reached. -/
def fresh (graph : DependencyGraph) (walk : Walk) : List String :=
  graph.names.filter (walk.isFresh graph)

/-- The moves that the names on a path account for by themselves: one for each dependency still to
be followed, and one to finish. -/
def pendingWork : List Frame → Nat
  | [] => 0
  | frame :: below => frame.pending.length + 1 + pendingWork below

/-- The moves that the path and the starts account for by themselves. -/
def work (walk : Walk) : Nat :=
  pendingWork walk.stack + walk.roots.length

/-- What the items of a list weigh together. -/
def total {α : Type} (weigh : α → Nat) : List α → Nat
  | [] => 0
  | item :: rest => weigh item + total weigh rest

/-- If each item weighs one, they weigh as much as there are. -/
theorem total_one {α : Type} (items : List α) : total (fun _ => 1) items = items.length := by
  induction items with
  | nil => rfl
  | cons item rest ih => rw [total, ih, List.length_cons, Nat.add_comm]

/-- The moves that are left unless a circle is met: the work on the names that are reached, and for
each fresh name one for each of its dependencies and one to finish it. -/
def movesLeft (graph : DependencyGraph) (walk : Walk) : Nat :=
  walk.work + total (fun name => ((graph.find? name).getD []).length + 1) (walk.fresh graph)

/-- A test that passes less often keeps no more weight. -/
theorem total_filter_le {α : Type} {keep keep' : α → Bool} (weigh : α → Nat)
    (less : ∀ item, keep item = true → keep' item = true) (items : List α) :
    total weigh (items.filter keep) ≤ total weigh (items.filter keep') := by
  induction items with
  | nil => exact Nat.le_refl _
  | cons item rest ih =>
    by_cases kept : keep item = true
    · simpa [total, kept, less item kept] using ih
    · by_cases kept' : keep' item = true <;> simp [total, kept, kept'] <;> omega

/-- If it fails for a member that passed, the weight of that member is lost at least. -/
theorem add_total_filter_le {α : Type} {keep keep' : α → Bool} {items : List α}
    (weigh : α → Nat) (item : α) (member : item ∈ items)
    (less : ∀ other, keep other = true → keep' other = true)
    (before : keep' item = true) (after : keep item = false) :
    weigh item + total weigh (items.filter keep) ≤ total weigh (items.filter keep') := by
  induction items with
  | nil => cases member
  | cons head tail ih =>
    rcases List.mem_cons.1 member with rfl | inside
    · simp only [List.filter_cons, before, after, if_true, if_false, total, Bool.false_eq_true]
      exact Nat.add_le_add_left (total_filter_le weigh less tail) _
    · have lighter := ih inside
      by_cases kept : keep head = true
      · simp [total, kept, less head kept]
        omega
      · by_cases kept' : keep' head = true <;> simp [total, kept, kept'] <;> omega

/-- Going on to a fresh name takes the name from the fresh ones. -/
theorem add_total_fresh_enter_le {graph : DependencyGraph} {walk : Walk} {name : String}
    (weigh : String → Nat) (unreached : walk.isFresh graph name = true) :
    weigh name + total weigh ((walk.enter graph name).fresh graph) ≤
      total weigh (walk.fresh graph) := by
  refine add_total_filter_le weigh name ?_ ?_ unreached ?_
  · simp only [isFresh, Bindings.contains, Bool.and_eq_true] at unreached
    exact List.contains_iff_mem.1 unreached.1
  · intro other
    simp only [isFresh, enter, active, List.map_cons, List.contains_cons, Bool.and_eq_true,
      Bool.not_eq_true', Bool.or_eq_false_iff]
    exact fun ⟨bound, ⟨_, active⟩, finished⟩ => ⟨bound, active, finished⟩
  · simp [isFresh, enter, active]

/-- Walks with the same names on the path or finished have the same fresh names. -/
theorem fresh_congr {graph : DependencyGraph} {walk other : Walk}
    (same : ∀ name, walk.isFresh graph name = other.isFresh graph name) :
    walk.fresh graph = other.fresh graph := by
  simp only [fresh]
  exact List.filter_congr fun name _ => same name

/-- Finishing a name leaves the same names fresh. -/
theorem fresh_finish {graph : DependencyGraph} {walk : Walk} {name : String} {below : List Frame}
    (top : walk.stack = ⟨name, []⟩ :: below) :
    (walk.finish name below).fresh graph = walk.fresh graph := by
  apply fresh_congr
  intro other
  simp [isFresh, finish, active, top, Bool.and_assoc, Bool.and_comm, Bool.and_left_comm]

/-- Finishing a name takes one from the work. -/
theorem work_finish_lt {walk : Walk} {name : String} {below : List Frame}
    (top : walk.stack = ⟨name, []⟩ :: below) : (walk.finish name below).work < walk.work := by
  simp [work, pendingWork, finish, top]

/-- A visit leaves fewer moves: it takes them over from a fresh name, or takes none. -/
theorem movesLeft_visit_lt {graph : DependencyGraph} {walk next : Walk} {name : String}
    (kept : ∀ other, next.isFresh graph other = walk.isFresh graph other)
    (less : next.work < walk.work) :
    (next.visit graph name).movesLeft graph < walk.movesLeft graph := by
  have fresh := fresh_congr kept
  unfold visit movesLeft
  split
  · rename_i unreached
    have taken := add_total_fresh_enter_le
      (fun name => ((graph.find? name).getD []).length + 1) unreached
    have entered : (next.enter graph name).work =
        ((graph.find? name).getD []).length + 1 + next.work := by
      simp only [work, pendingWork, enter]
      omega
    rw [← fresh]
    omega
  · rw [fresh]
    omega

/-- After a move that goes on there are fewer left. -/
theorem movesLeft_lt_of_step {graph : DependencyGraph} {walk next : Walk}
    (moved : walk.step graph = .running next) : next.movesLeft graph < walk.movesLeft graph := by
  revert moved
  fun_cases step graph walk with
  | case1 => rintro ⟨⟩
  | case2 empty root roots more =>
    rintro ⟨⟩
    exact movesLeft_visit_lt (fun _ => by simp [isFresh, active]) (by simp [work, more])
  | case3 name below top =>
    rintro ⟨⟩
    rw [movesLeft, movesLeft, fresh_finish top]
    exact Nat.add_lt_add_right (work_finish_lt top) _
  | case4 => rintro ⟨⟩
  | case5 name child pending below top =>
    rintro ⟨⟩
    exact movesLeft_visit_lt (fun _ => by simp [isFresh, active, top])
      (by simp [work, pendingWork, top])

/-- All moves of a walk: the finished names, or the members of a circle. -/
def run (graph : DependencyGraph) (walk : Walk) : Except (List String) (List String) :=
  match _moved : walk.step graph with
  | .done order => .ok order
  | .cycle members => .error members
  | .running next => next.run graph
termination_by walk.movesLeft graph
decreasing_by exact movesLeft_lt_of_step _moved

/-- The walk that has yet to start from each bound name. -/
def start (graph : DependencyGraph) : Walk :=
  ⟨graph.names, [], []⟩

end Walk

namespace DependencyGraph

/-- The bound names, each after those that it depends on, or the first circle that the walk meets,
from the name at which it closes on. -/
def order (graph : DependencyGraph) : Except (List String) (List String) :=
  (Walk.start graph).run graph

end DependencyGraph

end EditableTemplate
