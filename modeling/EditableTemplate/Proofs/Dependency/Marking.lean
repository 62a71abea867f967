import EditableTemplate.Proofs.Dependency.Invariant

/-!
# A walk with marks

Depth-first search is often written with a mark for each bound name: white before it is reached,
grey from then on, and black when it is finished. Such a search looks at the marks alone to decide
whether to go on to a name, to pass it over, or to stop at a circle (`MarkedWalk.Moves`). In every
state that it comes to, the grey names are those of the path and the black ones are the finished
names (`MarkedWalk.Agrees`), so it makes the moves of the walk that looks at the path, and no others
(`MarkedWalk.reachable_iff`). What holds of its states is `MarkedWalk.Sound`: the names of the path
are distinct, each is a dependency of the one below it, black names depend on black names only, and
a grey name has passed over names that are black or not bound, and then it may have gone on to one.
-/

namespace EditableTemplate

namespace Walk

/-- The count of names not reached, and then the work left on those that are. -/
def measure (graph : DependencyGraph) (walk : Walk) : Nat × Nat :=
  ((walk.fresh graph).length, walk.work)

/-- Going on to a fresh name leaves fewer names fresh. -/
theorem length_fresh_enter {graph : DependencyGraph} {walk : Walk} {name : String}
    (unreached : walk.isFresh graph name = true) :
    ((walk.enter graph name).fresh graph).length < (walk.fresh graph).length := by
  have fewer := add_total_fresh_enter_le (fun _ => 1) unreached
  rw [total_one, total_one] at fewer
  omega

/-- A visit either reaches a fresh name or changes nothing. -/
theorem measure_visit {graph : DependencyGraph} {walk next : Walk} {name : String}
    (kept : ∀ other, next.isFresh graph other = walk.isFresh graph other)
    (less : next.work < walk.work) :
    Prod.Lex (· < ·) (· < ·) ((next.visit graph name).measure graph) (walk.measure graph) := by
  have fresh := fresh_congr kept
  unfold visit measure
  split
  · rename_i unreached
    have fewer := length_fresh_enter unreached
    exact .left _ _ (by rw [← fresh]; exact fewer)
  · rw [fresh]
    exact .right _ less

/-- A move that goes on makes the measure smaller. -/
theorem measure_lt_of_step {graph : DependencyGraph} {walk next : Walk}
    (moved : walk.step graph = .running next) :
    Prod.Lex (· < ·) (· < ·) (next.measure graph) (walk.measure graph) := by
  revert moved
  fun_cases step graph walk with
  | case1 => rintro ⟨⟩
  | case2 empty root roots more =>
      rintro ⟨⟩
      exact measure_visit (fun _ => by simp [isFresh, active]) (by simp [work, more])
  | case3 name below top =>
      rintro ⟨⟩
      rw [measure, measure, fresh_finish top]
      exact .right _ (work_finish_lt top)
  | case4 => rintro ⟨⟩
  | case5 name child pending below top =>
      rintro ⟨⟩
      exact measure_visit (fun _ => by simp [isFresh, active, top])
        (by simp [work, pendingWork, top])

end Walk

/-- How far a search has come with a bound name. -/
inductive Shade
  /-- It has not been reached. -/
  | white
  /-- It has been reached and is not finished. -/
  | grey
  /-- It is finished. -/
  | black
  deriving DecidableEq

/-- The mark of a name, which is as good as finished if it is not bound. -/
def Bindings.markOf (marks : Bindings Shade) (name : String) : Shade :=
  (marks.find? name).getD .black

/-- A walk, and the marks of the bound names. -/
structure MarkedWalk where
  /-- The walk. -/
  walk : Walk
  /-- The marks. -/
  marks : Bindings Shade

namespace MarkedWalk

variable {graph : DependencyGraph} {state next : MarkedWalk} {name child : String}

/-- The search that has yet to start from each bound name. -/
def start (graph : DependencyGraph) : MarkedWalk :=
  ⟨Walk.start graph, graph.map fun _ => .white⟩

/-- The moves of a search that looks at the marks: from an empty path it starts from the next root
or leaves it out, and otherwise the current name passes over its next dependency, goes on to it, or
is finished. -/
inductive Moves (graph : DependencyGraph) : MarkedWalk → MarkedWalk → Prop
  | leave {root : String} {roots finished : List String} {marks : Bindings Shade}
      (marked : marks.markOf root ≠ .white) :
      Moves graph ⟨⟨root :: roots, [], finished⟩, marks⟩ ⟨⟨roots, [], finished⟩, marks⟩
  | start {root : String} {roots children finished : List String} {marks : Bindings Shade}
      (white : marks.markOf root = .white) (found : graph.find? root = some children) :
      Moves graph ⟨⟨root :: roots, [], finished⟩, marks⟩
        ⟨⟨roots, [⟨root, children⟩], finished⟩, marks.put root .grey⟩
  | skip {name child : String} {roots pending finished : List String} {below : List Frame}
      {marks : Bindings Shade} (black : marks.markOf child = .black) :
      Moves graph ⟨⟨roots, ⟨name, child :: pending⟩ :: below, finished⟩, marks⟩
        ⟨⟨roots, ⟨name, pending⟩ :: below, finished⟩, marks⟩
  | push {name child : String} {roots children pending finished : List String}
      {below : List Frame} {marks : Bindings Shade} (white : marks.markOf child = .white)
      (found : graph.find? child = some children) :
      Moves graph ⟨⟨roots, ⟨name, child :: pending⟩ :: below, finished⟩, marks⟩
        ⟨⟨roots, ⟨child, children⟩ :: ⟨name, pending⟩ :: below, finished⟩, marks.put child .grey⟩
  | pop {name : String} {roots finished : List String} {below : List Frame}
      {marks : Bindings Shade} :
      Moves graph ⟨⟨roots, ⟨name, []⟩ :: below, finished⟩, marks⟩
        ⟨⟨roots, below, finished ++ [name]⟩, marks.put name .black⟩

/-- The states that the search comes to. -/
inductive Reachable (graph : DependencyGraph) : MarkedWalk → Prop
  | start : Reachable graph (start graph)
  | step {state next : MarkedWalk} (reachable : Reachable graph state)
      (moved : Moves graph state next) : Reachable graph next

/-- The count of white names, and then the work left on the path and on the roots. -/
def measure (graph : DependencyGraph) (state : MarkedWalk) : Nat × Nat :=
  ((graph.names.filter fun name => state.marks.markOf name = .white).length, state.walk.work)

/-! ## The marks and the path -/

/-- The bound names are marked, grey on the path and black when finished. -/
structure Agrees (graph : DependencyGraph) (state : MarkedWalk) : Prop where
  names : state.marks.names = graph.names
  grey : ∀ name, state.marks.find? name = some .grey ↔ name ∈ state.walk.active
  black : ∀ name, state.marks.find? name = some .black ↔ name ∈ state.walk.finished

theorem markOf_eq_iff {marks : Bindings Shade} {mark : Shade} (unfinished : mark ≠ .black) :
    marks.markOf name = mark ↔ marks.find? name = some mark := by
  unfold Bindings.markOf
  cases marks.find? name with
  | none => simp [unfinished.symm]
  | some other => simp

namespace Agrees

/-- At the start the marks agree with the walk. -/
theorem start (graph : DependencyGraph) : (MarkedWalk.start graph).Agrees graph where
  names := Bindings.names_map _ graph
  grey := fun name => by
    simp [MarkedWalk.start, Walk.start, Walk.active, Bindings.find?_map]
  black := fun name => by
    simp [MarkedWalk.start, Walk.start, Bindings.find?_map]

/-- The bound names are those with a mark. -/
theorem mem_names_iff (agrees : state.Agrees graph) :
    name ∈ graph.names ↔ ∃ mark, state.marks.find? name = some mark := by
  rw [← agrees.names, Bindings.mem_names_iff]

/-- A name is passed over if it is black or not bound. -/
theorem markOf_eq_black_iff (agrees : state.Agrees graph) :
    state.marks.markOf name = .black ↔
      name ∉ graph.names ∨ state.marks.find? name = some .black := by
  rw [agrees.mem_names_iff]
  unfold Bindings.markOf
  cases state.marks.find? name with
  | none => simp
  | some mark => simp

/-- The white names are the fresh ones. -/
theorem isFresh_eq_true_iff (agrees : state.Agrees graph) :
    state.walk.isFresh graph name = true ↔ state.marks.markOf name = .white := by
  rw [Walk.isFresh_eq_true_iff, markOf_eq_iff (by decide), agrees.mem_names_iff, ← agrees.grey,
    ← agrees.black]
  constructor
  · rintro ⟨⟨mark, marked⟩, notGrey, notBlack⟩
    cases mark with
    | white => exact marked
    | grey => exact absurd marked notGrey
    | black => exact absurd marked notBlack
  · intro white
    simp [white]

/-- Reaching a white name marks it grey and puts it on the path. -/
theorem enter (agrees : state.Agrees graph) (white : state.marks.markOf name = .white) :
    Agrees graph ⟨state.walk.enter graph name, state.marks.put name .grey⟩ := by
  have marked := (markOf_eq_iff (by decide)).mp white
  refine ⟨?_, fun other => ?_, fun other => ?_⟩
  · rw [Bindings.names_put, if_pos (Bindings.mem_names_of_find? marked), agrees.names]
  · have place : other ∈ (state.walk.enter graph name).active ↔
        other = name ∨ other ∈ state.walk.active := List.mem_cons
    rw [place, ← agrees.grey, Bindings.find?_put]
    by_cases same : name = other
    · simp [same]
    · simp [same, Ne.symm same]
  · have place : other ∈ (state.walk.enter graph name).finished ↔
        other ∈ state.walk.finished := .rfl
    rw [place, ← agrees.black, Bindings.find?_put]
    by_cases same : name = other
    · simp [← same, marked]
    · simp [same]

/-- Finishing the current name marks it black and takes it from the path. -/
theorem finish {below : List Frame} (agrees : state.Agrees graph)
    (top : state.walk.stack = ⟨name, []⟩ :: below) (distinct : state.walk.active.Nodup) :
    Agrees graph ⟨state.walk.finish name below, state.marks.put name .black⟩ := by
  have active : state.walk.active = name :: below.map Frame.name := by rw [Walk.active, top]; rfl
  have marked := (agrees.grey name).mpr (by rw [active]; exact List.mem_cons_self)
  rw [active] at distinct
  obtain ⟨absent, _⟩ := List.nodup_cons.mp distinct
  refine ⟨?_, fun other => ?_, fun other => ?_⟩
  · rw [Bindings.names_put, if_pos (Bindings.mem_names_of_find? marked), agrees.names]
  · have place := agrees.grey other
    rw [active, List.mem_cons] at place
    change _ ↔ other ∈ below.map Frame.name
    rw [Bindings.find?_put]
    by_cases same : name = other
    · subst same
      simpa using absent
    · simpa [same, Ne.symm same] using place
  · have place : other ∈ (state.walk.finish name below).finished ↔
        other ∈ state.walk.finished ∨ other = name := by simp [Walk.finish]
    rw [place, ← agrees.black, Bindings.find?_put]
    by_cases same : name = other
    · simp [same]
    · simp [same, Ne.symm same]

end Agrees

theorem enter_of_find? {children : List String} (found : graph.find? name = some children)
    (walk : Walk) :
    walk.enter graph name = { walk with stack := ⟨name, children⟩ :: walk.stack } := by
  rw [Walk.enter, found]
  rfl

/-- A move that looks at the marks is the move that looks at the path, if the two agree. -/
theorem Agrees.step_eq (agrees : state.Agrees graph) (moved : Moves graph state next) :
    state.walk.step graph = .running next.walk := by
  cases moved with
  | @leave root roots finished marks marked =>
      have stale : ¬Walk.isFresh graph ⟨roots, [], finished⟩ root = true :=
        fun fresh => marked (agrees.isFresh_eq_true_iff.mp fresh)
      simp only [Walk.step, Walk.visit, if_neg stale]
  | @start root roots children finished marks white found =>
      have fresh : Walk.isFresh graph ⟨roots, [], finished⟩ root = true :=
        agrees.isFresh_eq_true_iff.mpr white
      simp only [Walk.step, Walk.visit, if_pos fresh, enter_of_find? found]
  | @skip name child roots pending finished below marks black =>
      have offPath : child ∉ Walk.active ⟨roots, ⟨name, child :: pending⟩ :: below, finished⟩ := by
        intro onPath
        have grey := (markOf_eq_iff (by decide)).mpr ((agrees.grey child).mpr onPath)
        cases black.symm.trans grey
      have stale :
          ¬Walk.isFresh graph ⟨roots, ⟨name, pending⟩ :: below, finished⟩ child = true := by
        intro fresh
        cases black.symm.trans (agrees.isFresh_eq_true_iff.mp fresh)
      simp only [Walk.step, List.contains_iff_mem, if_neg offPath, Walk.visit, if_neg stale]
  | @push name child roots children pending finished below marks white found =>
      have fresh : Walk.isFresh graph ⟨roots, ⟨name, pending⟩ :: below, finished⟩ child = true :=
        agrees.isFresh_eq_true_iff.mpr white
      have offPath : child ∉ Walk.active ⟨roots, ⟨name, child :: pending⟩ :: below, finished⟩ :=
        (Walk.isFresh_eq_true_iff.mp fresh).2.1
      simp only [Walk.step, List.contains_iff_mem, if_neg offPath, Walk.visit, if_pos fresh,
        enter_of_find? found]
  | pop => rfl

/-- The marks agree with the walk after a move if they do before it. -/
theorem Agrees.moves (agrees : state.Agrees graph) (distinct : state.walk.active.Nodup)
    (moved : Moves graph state next) : next.Agrees graph := by
  cases moved with
  | leave marked => exact ⟨agrees.names, agrees.grey, agrees.black⟩
  | @start root roots children finished marks white found =>
      have before : Agrees graph ⟨⟨roots, [], finished⟩, marks⟩ :=
        ⟨agrees.names, agrees.grey, agrees.black⟩
      have entered := before.enter white
      rwa [enter_of_find? found] at entered
  | skip black => exact ⟨agrees.names, agrees.grey, agrees.black⟩
  | @push name child roots children pending finished below marks white found =>
      have before : Agrees graph ⟨⟨roots, ⟨name, pending⟩ :: below, finished⟩, marks⟩ :=
        ⟨agrees.names, agrees.grey, agrees.black⟩
      have entered := before.enter white
      rwa [enter_of_find? found] at entered
  | pop => exact agrees.finish rfl distinct

/-- A state that the search comes to is one of the walk that looks at the path, and the marks agree
with the path there. -/
theorem agrees_of_reachable (reachable : Reachable graph state) :
    Walk.Reachable graph state.walk ∧ state.Agrees graph := by
  induction reachable with
  | start => exact ⟨.start, .start graph⟩
  | step _ moved ih =>
      obtain ⟨passed, agrees⟩ := ih
      have distinct := (List.nodup_append.mp (Walk.coherent_of_reachable passed).distinct).1
      exact ⟨.step passed (agrees.step_eq moved), agrees.moves distinct moved⟩

/-- Where the walk that looks at the path moves, the search that looks at the marks does, too. -/
theorem Agrees.exists_moves (agrees : state.Agrees graph) {walk : Walk}
    (moved : state.walk.step graph = .running walk) :
    ∃ marks, Moves graph state ⟨walk, marks⟩ := by
  obtain ⟨⟨roots, stack, finished⟩, marks⟩ := state
  have bound : ∀ name, marks.markOf name = .white → ∃ children, graph.find? name = some children :=
    fun name white => Bindings.mem_names_iff.mp
      (agrees.mem_names_iff.mpr ⟨_, (markOf_eq_iff (by decide)).mp white⟩)
  have goesOn : ∃ next, Moves graph ⟨⟨roots, stack, finished⟩, marks⟩ next := by
    match stack, roots with
    | [], [] => cases moved
    | [], root :: roots =>
        by_cases white : marks.markOf root = .white
        · obtain ⟨children, found⟩ := bound root white
          exact ⟨_, .start white found⟩
        · exact ⟨_, .leave white⟩
    | ⟨name, []⟩ :: below, _ => exact ⟨_, .pop⟩
    | ⟨name, child :: pending⟩ :: below, roots =>
        cases mark : marks.markOf child with
        | white =>
            obtain ⟨children, found⟩ := bound child mark
            exact ⟨_, .push mark found⟩
        | grey =>
            have onPath := (agrees.grey child).mp ((markOf_eq_iff (by decide)).mp mark)
            simp only [Walk.step, List.contains_iff_mem, if_pos onPath] at moved
            cases moved
        | black => exact ⟨_, .skip mark⟩
  obtain ⟨⟨_, after⟩, next⟩ := goesOn
  obtain rfl := Walk.Next.running.inj ((agrees.step_eq next).symm.trans moved)
  exact ⟨after, next⟩

/-- The two searches come to the same states. -/
theorem reachable_iff {walk : Walk} :
    Walk.Reachable graph walk ↔ ∃ marks, Reachable graph ⟨walk, marks⟩ := by
  constructor
  · intro reachable
    induction reachable with
    | start => exact ⟨_, .start⟩
    | step _ moved ih =>
        obtain ⟨marks, marked⟩ := ih
        obtain ⟨after, next⟩ := (agrees_of_reachable marked).2.exists_moves moved
        exact ⟨after, .step marked next⟩
  · rintro ⟨marks, marked⟩
    exact (agrees_of_reachable marked).1

/-! ## What holds of the states -/

/-- The frames of a path, the current one first, below the name that it goes on to, if there is one.
Each frame has passed over a first part of its dependencies, all of them black or not bound, then it
has gone on to the name above it, and the rest is pending. -/
def Passed (graph : DependencyGraph) (marks : Bindings Shade) : Option String → List Frame → Prop
  | _, [] => True
  | above, frame :: below =>
    (∃ passed, graph.find? frame.name = some (passed ++ above.toList ++ frame.pending) ∧
      ∀ child ∈ passed, child ∉ graph.names ∨ marks.find? child = some .black) ∧
    Passed graph marks (some frame.name) below

/-- What is black may become more. -/
theorem Passed.mono {marks more : Bindings Shade} {above : Option String} {frames : List Frame}
    (passed : Passed graph marks above frames)
    (kept : ∀ name, marks.find? name = some .black → more.find? name = some .black) :
    Passed graph more above frames := by
  induction frames generalizing above with
  | nil => trivial
  | cons frame below ih =>
      obtain ⟨⟨first, found, settled⟩, rest⟩ := passed
      exact ⟨⟨first, found, fun child member => (settled child member).imp_right (kept child)⟩,
        ih rest⟩

/-- What holds of a search in every state. -/
structure Sound (graph : DependencyGraph) (state : MarkedWalk) : Prop where
  names : state.marks.names = graph.names
  distinct : state.walk.active.Nodup
  grey : ∀ name, state.marks.find? name = some .grey ↔ name ∈ state.walk.active
  chain : state.walk.active.IsChain fun upper lower => graph.Depends lower upper
  once : state.walk.finished.Nodup
  black : ∀ name, state.marks.find? name = some .black ↔ name ∈ state.walk.finished
  closed : ∀ name child, state.marks.find? name = some .black → graph.Links name child →
    state.marks.find? child = some .black
  passed : Passed graph state.marks none state.walk.stack

/-- A mark that is not black becomes another one; the black ones stay. -/
theorem find?_put_of_black {marks : Bindings Shade} (mark : Shade)
    (changed : marks.find? name ≠ some .black) (other : String)
    (black : marks.find? other = some .black) :
    (marks.put name mark).find? other = some .black := by
  have apart : name ≠ other := by
    rintro rfl
    exact changed black
  rw [Bindings.find?_put, if_neg apart, black]

/-- In every state the frames have passed over black dependencies only. -/
theorem passed_of_reachable (reachable : Reachable graph state) :
    Passed graph state.marks none state.walk.stack := by
  induction reachable with
  | start => trivial
  | step reachable moved ih =>
      have agrees := (agrees_of_reachable reachable).2
      cases moved with
      | leave marked => trivial
      | start white found => exact ⟨⟨[], found, nofun⟩, trivial⟩
      | @skip name child roots pending finished below marks black =>
          obtain ⟨⟨first, found, settled⟩, rest⟩ := ih
          refine ⟨⟨first ++ [child], by simpa using found, fun other member => ?_⟩, rest⟩
          rcases List.mem_append.mp member with before | last
          · exact settled other before
          · rw [List.mem_singleton.mp last]
            exact agrees.markOf_eq_black_iff.mp black
      | @push name child roots children pending finished below marks white found =>
          obtain ⟨⟨first, found', settled⟩, rest⟩ := ih
          have changed : marks.find? child ≠ some .black := by
            rw [(markOf_eq_iff (by decide)).mp white]
            decide
          have split : Passed graph marks (some child) (⟨name, pending⟩ :: below) :=
            ⟨⟨first, by simpa using found', settled⟩, rest⟩
          exact ⟨⟨[], found, nofun⟩, split.mono (find?_put_of_black .grey changed)⟩
      | @pop name roots finished below marks =>
          obtain ⟨_, rest⟩ := ih
          have changed : marks.find? name ≠ some .black := by
            rw [(agrees.grey name).mpr List.mem_cons_self]
            decide
          have after := rest.mono (find?_put_of_black .black changed)
          cases below with
          | nil => trivial
          | cons lower below =>
              -- the frame below has passed over the finished name as well
              obtain ⟨⟨first, found, settled⟩, further⟩ := after
              refine ⟨⟨first ++ [name], by simpa using found, fun other member => ?_⟩, further⟩
              rcases List.mem_append.mp member with before | last
              · exact settled other before
              · rw [List.mem_singleton.mp last, Bindings.find?_put, if_pos rfl]
                exact .inr rfl

/-- Every state that the search comes to is sound. -/
theorem sound_of_reachable (reachable : Reachable graph state) : state.Sound graph := by
  obtain ⟨walked, agrees⟩ := agrees_of_reachable reachable
  have coherent := Walk.coherent_of_reachable walked
  obtain ⟨distinct, once, _⟩ := List.nodup_append.mp coherent.distinct
  refine ⟨agrees.names, distinct, agrees.grey, coherent.traced.isChain, once, agrees.black, ?_,
    passed_of_reachable reachable⟩
  intro name child black link
  obtain ⟨before, after, split⟩ := List.append_of_mem ((agrees.black name).mp black)
  refine (agrees.black child).mpr ?_
  rw [split]
  exact List.mem_append_left _ (coherent.ordered before name after split child link)

/-! ## The end of the search -/

/-- A grey name that comes next is on the path, and the path from its place on is the circle. -/
theorem Agrees.exists_circle {pending : List String} {below : List Frame}
    (agrees : state.Agrees graph) (top : state.walk.stack = ⟨name, child :: pending⟩ :: below)
    (grey : state.marks.markOf child = .grey) :
    ∃ lead rest, state.walk.path = lead ++ child :: rest ∧ child ∉ lead ∧
      state.walk.step graph = .cycle (child :: rest) := by
  have onPath := (agrees.grey child).mp ((markOf_eq_iff (by decide)).mp grey)
  obtain ⟨lead, rest, split, first⟩ := List.eq_append_cons_of_mem (List.mem_reverse.mpr onPath)
  have skipped : ∀ other ∈ lead, decide (other ≠ child) = true := by
    intro other member
    refine decide_eq_true ?_
    rintro rfl
    exact first member
  have segment : state.walk.path.dropWhile (· ≠ child) = child :: rest := by
    rw [Walk.path, split, List.dropWhile_append_of_pos skipped,
      List.dropWhile_cons_of_neg (by simp)]
  refine ⟨lead, rest, split, first, ?_⟩
  rw [← segment, Walk.step.eq_def, top]
  simp only [List.contains_iff_mem, if_pos onPath]

/-- The search can move, or all names are finished, or a grey name comes next. -/
theorem Agrees.progress (agrees : state.Agrees graph) :
    (∃ next, Moves graph state next) ∨
      (state.walk.roots = [] ∧ state.walk.stack = [] ∧
        state.walk.step graph = .done state.walk.finished) ∨
      ∃ name child pending below, state.walk.stack = ⟨name, child :: pending⟩ :: below ∧
        state.marks.markOf child = .grey := by
  cases moved : state.walk.step graph with
  | running walk =>
      obtain ⟨marks, next⟩ := agrees.exists_moves moved
      exact .inl ⟨_, next⟩
  | done order =>
      revert moved
      fun_cases Walk.step graph state.walk with intro moved
      | case1 empty none =>
          cases moved
          exact .inr (.inl ⟨none, empty, rfl⟩)
      | case2 => cases moved
      | case3 => cases moved
      | case4 => cases moved
      | case5 => cases moved
  | cycle members =>
      revert moved
      fun_cases Walk.step graph state.walk with intro moved
      | case1 => cases moved
      | case2 => cases moved
      | case3 => cases moved
      | case4 name child pending below top onPath =>
          have grey := (agrees.grey child).mpr (by simpa using onPath)
          exact .inr (.inr ⟨name, child, pending, below, top, (markOf_eq_iff (by decide)).mpr grey⟩)
      | case5 => cases moved

/-- The measure by the marks is that of the walk. -/
theorem Agrees.measure_eq (agrees : state.Agrees graph) :
    state.measure graph = state.walk.measure graph := by
  have same : ∀ name ∈ graph.names,
      decide (state.marks.markOf name = .white) = state.walk.isFresh graph name :=
    fun name _ => Bool.eq_iff_iff.mpr (by simp [agrees.isFresh_eq_true_iff])
  rw [measure, Walk.measure, Walk.fresh, List.filter_congr same]

/-- **A search with marks.** It comes to the states of the walk that looks at the path. In each of
them it is sound, and it can move unless the walk ends there, either because all names are finished
or because a grey name comes next. A grey name is found on the path, and the walk ends with the path
from its place on. A move is one of the walk, and makes the measure smaller. -/
theorem reachable_sound (graph : DependencyGraph) :
    (∀ walk, Walk.Reachable graph walk ↔ ∃ marks, Reachable graph ⟨walk, marks⟩) ∧
    ∀ state, Reachable graph state →
      state.Sound graph ∧
      ((∃ next, Moves graph state next) ∨
        (state.walk.roots = [] ∧ state.walk.stack = [] ∧
          state.walk.step graph = .done state.walk.finished) ∨
        ∃ name child pending below, state.walk.stack = ⟨name, child :: pending⟩ :: below ∧
          state.marks.markOf child = .grey) ∧
      (∀ name child pending below, state.walk.stack = ⟨name, child :: pending⟩ :: below →
        state.marks.markOf child = .grey →
        ∃ lead rest, state.walk.path = lead ++ child :: rest ∧ child ∉ lead ∧
          state.walk.step graph = .cycle (child :: rest)) ∧
      ∀ next, Moves graph state next →
        state.walk.step graph = .running next.walk ∧
        Prod.Lex (· < ·) (· < ·) (next.measure graph) (state.measure graph) := by
  refine ⟨fun walk => reachable_iff, fun state reachable => ?_⟩
  have agrees := (agrees_of_reachable reachable).2
  refine ⟨sound_of_reachable reachable, agrees.progress,
    fun _ _ _ _ top grey => agrees.exists_circle top grey, fun next moved => ?_⟩
  have same := agrees.step_eq moved
  have onward := (agrees_of_reachable (.step reachable moved)).2
  refine ⟨same, ?_⟩
  rw [agrees.measure_eq, onward.measure_eq]
  exact Walk.measure_lt_of_step same

end MarkedWalk

end EditableTemplate
