import EditableTemplate.Proofs.Dependency.Graph

/-!
# What a walk keeps

In every state that a walk passes through (`Walk.Reachable`) the names of the path are distinct and
unfinished, each is a dependency of the one below it, the finished names are in order, and a name of
the path has passed over finished names and names that are not bound only, but for the one that the
path goes on to (`Walk.Coherent`). One move keeps this (`Walk.Coherent.step`), so a whole walk does
(`Walk.coherent_of_reachable`).
-/

namespace EditableTemplate.Walk

variable {graph : DependencyGraph}

/-- The states that a walk passes through. -/
inductive Reachable (graph : DependencyGraph) : Walk → Prop
  | start : Reachable graph (start graph)
  | step {walk next : Walk} (reachable : Reachable graph walk)
      (moved : walk.step graph = .running next) : Reachable graph next

/-- The frames of a path, the current one first, before the path goes on to a next name, if it does.
Each frame has passed over a part of its dependencies, the next name among them, and all the others
of that part that are bound are finished. -/
def Traced (graph : DependencyGraph) (finished : List String) : Option String → List Frame → Prop
  | _, [] => True
  | next, frame :: below =>
    (∃ followed, graph.find? frame.name = some (followed ++ frame.pending) ∧
      (∀ child ∈ followed, child ∈ graph.names → child ∈ finished ∨ next = some child) ∧
      ∀ name, next = some name → name ∈ followed) ∧
    Traced graph finished (some frame.name) below

/-- What holds of a walk in every state. -/
structure Coherent (graph : DependencyGraph) (walk : Walk) : Prop where
  distinct : (walk.active ++ walk.finished).Nodup
  traced : Traced graph walk.finished none walk.stack
  bound : ∀ name ∈ walk.finished, name ∈ graph.names
  ordered : graph.IsOrdered walk.finished
  reached : ∀ name ∈ graph.names,
    name ∈ walk.roots ∨ name ∈ walk.active ∨ name ∈ walk.finished

/-- More names may be finished, and the next name may become one of them. -/
theorem Traced.mono {finished more : List String} {next later : Option String}
    {frames : List Frame} (traced : Traced graph finished next frames)
    (grows : ∀ name ∈ finished, name ∈ more)
    (settled : ∀ name, next = some name → name ∈ more ∨ later = some name)
    (kept : ∀ name, later = some name → next = some name) : Traced graph more later frames := by
  induction frames generalizing next later with
  | nil => trivial
  | cons frame below ih =>
      obtain ⟨⟨followed, found, passed, goesOn⟩, rest⟩ := traced
      refine ⟨⟨followed, found, ?_, fun name same => goesOn name (kept name same)⟩, ?_⟩
      · intro child member bound
        rcases passed child member bound with done | same
        · exact .inl (grows child done)
        · exact settled child same
      · exact ih rest (fun _ same => .inr same) fun _ same => same

/-- Each name of a path is a dependency of the one below it. -/
theorem Traced.isChain {finished : List String} {next : Option String} {frames : List Frame}
    (traced : Traced graph finished next frames) :
    (frames.map Frame.name).IsChain fun upper lower => graph.Depends lower upper := by
  induction frames generalizing next with
  | nil => exact .nil
  | cons frame below ih =>
      obtain ⟨_, rest⟩ := traced
      have chain := ih rest
      cases below with
      | nil => exact .singleton _
      | cons lower below =>
          obtain ⟨⟨followed, found, _, goesOn⟩, _⟩ := rest
          have depends : graph.Depends lower.name frame.name :=
            ⟨_, found, List.mem_append_left _ (goesOn _ rfl)⟩
          exact .cons_cons depends chain

/-- A name is fresh if it is bound and the walk has not reached it. -/
theorem isFresh_eq_true_iff {walk : Walk} {name : String} :
    walk.isFresh graph name = true ↔
      name ∈ graph.names ∧ name ∉ walk.active ∧ name ∉ walk.finished := by
  simp [isFresh]

/-- A walk starts coherent. -/
theorem coherent_start (graph : DependencyGraph) : (start graph).Coherent graph where
  distinct := List.nodup_nil
  traced := trivial
  bound := fun _ member => absurd member List.not_mem_nil
  ordered := DependencyGraph.isOrdered_nil
  reached := fun _ member => .inl member

/-- A path may go on to a fresh name that its current name has just passed over. -/
theorem coherent_enter {walk : Walk} {name : String} (fresh : walk.isFresh graph name = true)
    (distinct : (walk.active ++ walk.finished).Nodup)
    (traced : Traced graph walk.finished (some name) walk.stack)
    (bound : ∀ name ∈ walk.finished, name ∈ graph.names)
    (ordered : graph.IsOrdered walk.finished)
    (reached : ∀ other ∈ graph.names, other = name ∨ other ∈ walk.roots ∨
      other ∈ walk.active ∨ other ∈ walk.finished) : (walk.enter graph name).Coherent graph := by
  obtain ⟨known, inactive, unfinished⟩ := isFresh_eq_true_iff.mp fresh
  obtain ⟨children, found⟩ := Bindings.mem_names_iff.mp known
  refine ⟨?_, ⟨⟨[], ?_, by simp, by simp⟩, traced⟩, bound, ordered, ?_⟩
  · have absent : name ∉ walk.active ++ walk.finished := by simp [inactive, unfinished]
    exact List.nodup_cons.mpr ⟨absent, distinct⟩
  · simp [found]
  · intro other member
    rcases reached other member with rfl | waiting | active | done
    · exact .inr (.inl List.mem_cons_self)
    · exact .inl waiting
    · exact .inr (.inl (List.mem_cons_of_mem _ active))
    · exact .inr (.inr done)

/-- The current name may be finished once it has passed over all its dependencies. -/
theorem coherent_finish {walk : Walk} {name : String} {below : List Frame}
    (coherent : walk.Coherent graph) (top : walk.stack = ⟨name, []⟩ :: below) :
    (walk.finish name below).Coherent graph := by
  have active : walk.active = name :: below.map Frame.name := by rw [Walk.active, top]; rfl
  have traced := coherent.traced
  rw [top] at traced
  obtain ⟨⟨followed, found, passed, _⟩, rest⟩ := traced
  rw [List.append_nil] at found
  refine ⟨?_, ?_, ?_, ?_, ?_⟩
  · have distinct := coherent.distinct
    rw [active] at distinct
    have moved : (below.map Frame.name ++ (walk.finished ++ [name])).Perm
        (name :: below.map Frame.name ++ walk.finished) := by
      rw [← List.append_assoc]
      exact List.perm_append_singleton _ _
    exact moved.nodup_iff.mpr distinct
  · -- the frame below was waiting for this name, which is finished now
    refine rest.mono (fun _ member => List.mem_append_left _ member) ?_ (by simp)
    intro other same
    rw [← Option.some.inj same]
    exact .inl (List.mem_append_right _ List.mem_cons_self)
  · intro other member
    rcases List.mem_append.mp member with done | last
    · exact coherent.bound other done
    · rw [List.mem_singleton.mp last]
      exact Bindings.mem_names_of_find? found
  · apply coherent.ordered.concat
    rintro child ⟨⟨children, same, member⟩, known⟩
    obtain rfl : followed = children := Option.some.inj (found.symm.trans same)
    rcases passed child member known with done | impossible
    · exact done
    · cases impossible
  · intro other member
    rcases coherent.reached other member with waiting | inside | done
    · exact .inl waiting
    · rw [active] at inside
      rcases List.mem_cons.mp inside with rfl | lower
      · exact .inr (.inr (List.mem_append_right _ List.mem_cons_self))
      · exact .inr (.inl lower)
    · exact .inr (.inr (List.mem_append_left _ done))

/-- A move from an empty path starts from the next name or passes it over. -/
theorem coherent_visit_root {walk : Walk} {root : String} {roots : List String}
    (coherent : walk.Coherent graph) (empty : walk.stack = []) (more : walk.roots = root :: roots) :
    ({ walk with roots := roots }.visit graph root).Coherent graph := by
  have reached : ∀ other ∈ graph.names, other = root ∨ other ∈ roots ∨ other ∈ walk.active ∨
      other ∈ walk.finished := by
    intro other member
    have place := coherent.reached other member
    rw [more, List.mem_cons, or_assoc] at place
    exact place
  unfold visit
  split
  · rename_i fresh
    refine coherent_enter fresh coherent.distinct ?_ coherent.bound coherent.ordered reached
    change Traced graph walk.finished (some root) walk.stack
    rw [empty]
    trivial
  · -- a bound name that is not fresh is reached already, so it need not wait as a root
    rename_i stale
    refine ⟨coherent.distinct, coherent.traced, coherent.bound, coherent.ordered, ?_⟩
    intro other member
    rcases reached other member with rfl | later
    · rw [isFresh_eq_true_iff] at stale
      by_contra unreached
      simp only [not_or] at unreached
      exact stale ⟨member, unreached.2⟩
    · exact later

/-- A move along a dependency that is not on the path goes on to it or passes it over. -/
theorem coherent_visit_child {walk : Walk} {name child : String} {pending : List String}
    {below : List Frame} (coherent : walk.Coherent graph)
    (top : walk.stack = ⟨name, child :: pending⟩ :: below) (inactive : child ∉ walk.active) :
    ({ walk with stack := ⟨name, pending⟩ :: below }.visit graph child).Coherent graph := by
  have active : walk.active = name :: below.map Frame.name := by rw [Walk.active, top]; rfl
  have traced := coherent.traced
  rw [top] at traced
  obtain ⟨⟨followed, found, passed, _⟩, rest⟩ := traced
  have further : graph.find? name = some ((followed ++ [child]) ++ pending) := by simpa using found
  have distinct := coherent.distinct
  have reached := coherent.reached
  rw [active] at distinct reached inactive
  unfold visit
  split
  · rename_i fresh
    refine coherent_enter fresh distinct ⟨⟨followed ++ [child], further, ?_, ?_⟩, rest⟩
      coherent.bound coherent.ordered fun other member => .inr (reached other member)
    · intro other member known
      rcases List.mem_append.mp member with before | last
      · exact .inl ((passed other before known).resolve_right (by simp))
      · rw [List.mem_singleton.mp last]
        exact .inr rfl
    · intro other same
      rw [← Option.some.inj same]
      exact List.mem_append_right _ List.mem_cons_self
  · -- a bound child that is neither fresh nor on the path is finished
    rename_i stale
    refine ⟨distinct, ⟨⟨followed ++ [child], further, ?_, by simp⟩, rest⟩, coherent.bound,
      coherent.ordered, reached⟩
    intro other member known
    rcases List.mem_append.mp member with before | last
    · exact passed other before known
    · rw [List.mem_singleton.mp last] at known ⊢
      rw [isFresh_eq_true_iff] at stale
      by_contra unfinished
      simp only [not_or] at unfinished
      exact stale ⟨known, inactive, unfinished.1⟩

/-- One move keeps a walk coherent. -/
theorem Coherent.step {walk next : Walk} (coherent : walk.Coherent graph)
    (moved : walk.step graph = .running next) : next.Coherent graph := by
  revert moved
  fun_cases Walk.step graph walk with
  | case1 => rintro ⟨⟩
  | case2 empty root roots more =>
      rintro ⟨⟩
      exact coherent_visit_root coherent empty more
  | case3 name below top =>
      rintro ⟨⟩
      exact coherent_finish coherent top
  | case4 => rintro ⟨⟩
  | case5 name child pending below top inactive =>
      rintro ⟨⟩
      exact coherent_visit_child coherent top (by simpa using inactive)

/-- A walk is coherent in every state that it passes through. -/
theorem coherent_of_reachable {walk : Walk} (reachable : Reachable graph walk) :
    walk.Coherent graph := by
  induction reachable with
  | start => exact coherent_start graph
  | step _ moved ih => exact ih.step moved

end EditableTemplate.Walk
