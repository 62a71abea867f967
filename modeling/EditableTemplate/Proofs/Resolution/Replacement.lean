import EditableTemplate.Proofs.Resolution.Solution
import EditableTemplate.Proofs.Value

/-!
# Replacing overrides

Resolving looks at an override only to check it. So overrides of the same names that come to the
same under the checks (`Resolution.ChecksAlike`) resolve alike, to the same values or to the same
failure (`Resolution.resolveWith_eq_of_checksAlike`). What one variable is overridden by matters
from the place on where it is checked: either resolving has failed before, whatever the override is
(`Resolution.Blocked`), or an override that is refused is the failure
(`Resolution.blocked_or_refused`).
-/

namespace EditableTemplate.Resolution

variable {catalogue : Catalogue} {overrides overrides' : Bindings Datum} {policy : UnknownPolicy}
  {name : String} {entry : Entry} {datum : Datum}

/-- The overrides of a variable come to the same, or there is none in either row. -/
def ChecksAlike (catalogue : Catalogue) (overrides overrides' : Bindings Datum)
    (name : String) : Prop :=
  ∀ entry, catalogue.entryOf? name = some entry →
    (overrides.find? name).map (·.check name entry.kind) =
      (overrides'.find? name).map (·.check name entry.kind)

/-- Overrides that check alike give a variable the same next value. -/
theorem resolveNext_congr (alike : ChecksAlike catalogue overrides overrides' name)
    (values : Bindings Value) :
    resolveNext (index catalogue) overrides values name =
      resolveNext (index catalogue) overrides' values name := by
  unfold resolveNext
  rw [Catalogue.find?_index]
  cases described : catalogue.entryOf? name with
  | none => rfl
  | some entry =>
      have checked := alike entry described
      have same : value overrides values entry = value overrides' values entry := by
        unfold value
        rw [Catalogue.name_of_entryOf? described]
        cases first : overrides.find? name <;> cases second : overrides'.find? name <;>
          simp_all
      simp only [same]

/-- Overrides that check alike give a list of variables the same values. -/
theorem foldlM_resolveNext_congr {names : List String}
    (alike : ∀ name ∈ names, ChecksAlike catalogue overrides overrides' name)
    (values : Bindings Value) :
    names.foldlM (resolveNext (index catalogue) overrides) values =
      names.foldlM (resolveNext (index catalogue) overrides') values := by
  induction names generalizing values with
  | nil => rfl
  | cons name rest ih =>
      obtain ⟨first, others⟩ := List.forall_mem_cons.mp alike
      rw [List.foldlM_cons, List.foldlM_cons, resolveNext_congr first]
      exact congrArg _ (funext (ih others))

/-- The first override that names no variable. -/
def undeclared? (catalogue : Catalogue) (overrides : Bindings Datum) : Option String :=
  overrides.names.find? fun name => !(index catalogue).contains name

/-- The values that come of going through the variables in the order of the references. -/
def resolveDeclared (catalogue : Catalogue) (overrides : Bindings Datum) :
    Except Failure (Bindings Value) :=
  catalogue.graph.schedule >>= fun order =>
    order.foldlM (resolveNext (index catalogue) overrides) Bindings.empty

/-- Overrides of unknown variables make no difference to the next value. -/
theorem resolveNext_filter (catalogue : Catalogue) (overrides : Bindings Datum) :
    resolveNext (index catalogue) (overrides.filter (index catalogue).contains) =
      resolveNext (index catalogue) overrides := by
  funext values name
  unfold resolveNext
  rw [Catalogue.find?_index]
  cases described : catalogue.entryOf? name with
  | none => rfl
  | some entry => simp only [value_filter described]

/-- Resolving reports an unknown override if the policy says so, and else ignores it. -/
theorem resolveWith_eq (policy : UnknownPolicy) (catalogue : Catalogue)
    (overrides : Bindings Datum) :
    resolveWith policy catalogue overrides =
      match policy, undeclared? catalogue overrides with
      | .error, some name => .error (.undeclared name none)
      | _, _ => resolveDeclared catalogue overrides := by
  have kept : ∀ policy, supplied policy (index catalogue) overrides =
      .ok (overrides.filter (index catalogue).contains) →
      resolveWith policy catalogue overrides = resolveDeclared catalogue overrides := by
    intro policy allowed
    rw [resolveDeclared, ← resolveNext_filter]
    simp only [resolveWith, allowed]
    rfl
  unfold undeclared?
  cases policy with
  | ignore => exact kept .ignore rfl
  | error =>
      cases unknown : overrides.names.find? fun name => !(index catalogue).contains name with
      | none => exact kept .error (by simp only [supplied, unknown])
      | some name =>
          have refused : supplied .error (index catalogue) overrides =
              .error (.undeclared name none) := by simp only [supplied, unknown]
          simp only [resolveWith, refused]
          rfl

/-- Overrides that check alike resolve alike. -/
theorem resolveDeclared_congr (alike : ∀ name, ChecksAlike catalogue overrides overrides' name) :
    resolveDeclared catalogue overrides = resolveDeclared catalogue overrides' := by
  unfold resolveDeclared
  congr 1
  funext order
  exact foldlM_resolveNext_congr (fun name _ => alike name) Bindings.empty

/-- Overrides that come to the same under the checks resolve alike. -/
theorem resolveWith_eq_of_checksAlike (names : overrides.names = overrides'.names)
    (alike : ∀ name, ChecksAlike catalogue overrides overrides' name) :
    resolveWith policy catalogue overrides = resolveWith policy catalogue overrides' := by
  rw [resolveWith_eq, resolveWith_eq, undeclared?, undeclared?, names, resolveDeclared_congr alike]

/-! ## One variable -/

/-- Resolving fails in one way, whatever a variable is overridden by. -/
def Blocked (policy : UnknownPolicy) (catalogue : Catalogue) (overrides : Bindings Datum)
    (name : String) : Prop :=
  ∃ failure, ∀ datum,
    resolve policy catalogue (.data (overrides.put name datum)) = .error failure

/-- Overrides that differ for one variable check alike for the others. -/
theorem checksAlike_put {other : String} (apart : other ≠ name) (first second : Datum) :
    ChecksAlike catalogue (overrides.put name first) (overrides.put name second) other := by
  intro entry _
  rw [Bindings.find?_put, Bindings.find?_put, if_neg apart.symm, if_neg apart.symm]

theorem resolveNext_put (described : catalogue.entryOf? name = some entry)
    (values : Bindings Value) :
    resolveNext (index catalogue) (overrides.put name datum) values name =
      (datum.check name entry.kind).map (values.put name) := by
  have named := Catalogue.name_of_entryOf? described
  have found : (overrides.put name datum).find? name = some datum := by
    rw [Bindings.find?_put, if_pos rfl]
  rw [resolveNext, Catalogue.find?_index, described]
  simp only [value, named, found]

/-- Resolving fails whatever a variable is overridden by, or it fails with the check of the
override. -/
theorem resolveDeclared_put (overrides : Bindings Datum)
    (described : catalogue.entryOf? name = some entry) :
    (∃ failure, ∀ datum,
      resolveDeclared catalogue (overrides.put name datum) = .error failure) ∨
    ∀ datum failure, datum.check name entry.kind = .error failure →
      resolveDeclared catalogue (overrides.put name datum) = .error failure := by
  cases scheduled : catalogue.graph.schedule with
  | error failure =>
      refine .inl ⟨failure, fun datum => ?_⟩
      rw [resolveDeclared, scheduled]
      rfl
  | ok order =>
      obtain ⟨before, after, parts⟩ :=
        List.append_of_mem ((mem_schedule_iff scheduled).mpr ⟨entry, described⟩)
      have distinct : order.Nodup :=
        (DependencyGraph.perm_names_of_schedule scheduled).1.nodup_iff.mpr (Bindings.nodup_names _)
      rw [parts] at distinct
      have apart : ∀ other ∈ before, other ≠ name := fun other member =>
        (List.nodup_append.mp distinct).2.2 other member name List.mem_cons_self
      -- the variables before it do not look at the override
      have same : ∀ datum,
          before.foldlM (resolveNext (index catalogue) (overrides.put name datum)) Bindings.empty =
            before.foldlM (resolveNext (index catalogue) (overrides.put name .none))
              Bindings.empty :=
        fun datum => foldlM_resolveNext_congr
          (fun other member => checksAlike_put (apart other member) datum .none) Bindings.empty
      have whole : ∀ datum,
          resolveDeclared catalogue (overrides.put name datum) =
            before.foldlM (resolveNext (index catalogue) (overrides.put name .none))
              Bindings.empty >>= fun values =>
              (datum.check name entry.kind).map (Bindings.put values name) >>= fun values =>
                after.foldlM (resolveNext (index catalogue) (overrides.put name datum)) values := by
        intro datum
        rw [resolveDeclared, scheduled, parts, ← same datum]
        change (before ++ name :: after).foldlM _ _ = _
        simp only [List.foldlM_append, List.foldlM_cons, resolveNext_put described]
      simp only [whole]
      cases before.foldlM (resolveNext (index catalogue) (overrides.put name .none))
          Bindings.empty with
      | error failure => exact .inl ⟨failure, fun _ => rfl⟩
      | ok values =>
          refine .inr fun datum failure refused => ?_
          rw [refused]
          rfl

/-- Resolving is blocked, or an override that is refused is the failure. -/
theorem blocked_or_refused (policy : UnknownPolicy) (overrides : Bindings Datum)
    (described : catalogue.entryOf? name = some entry) :
    Blocked policy catalogue overrides name ∨
    ∀ datum failure, datum.check name entry.kind = .error failure →
      resolve policy catalogue (.data (overrides.put name datum)) = .error failure := by
  have plain : ∀ datum, resolve policy catalogue (.data (overrides.put name datum)) =
      resolveWith policy catalogue (overrides.put name datum) := fun _ => rfl
  have names : ∀ datum, undeclared? catalogue (overrides.put name datum) =
      undeclared? catalogue (overrides.put name .none) := by
    intro datum
    rw [undeclared?, undeclared?, Bindings.names_put, Bindings.names_put]
  unfold Blocked
  simp only [plain, resolveWith_eq, names]
  split
  · exact .inl ⟨_, fun _ => rfl⟩
  · exact resolveDeclared_put overrides described

/-- A variable that is found to be of another kind is the one whose override, or whose default, was
checked. -/
theorem name_of_value_mismatch {values : Bindings Value} {expected : Kind} {found : Found}
    {shown : Datum}
    (failed : value overrides values entry = .error (.mismatch name expected found shown)) :
    name = entry.name := by
  have checked : ∀ {given : Value},
      given.check entry.name entry.kind = .error (.mismatch name expected found shown) →
        name = entry.name := by
    intro given refused
    unfold Value.check at refused
    split at refused
    · cases refused
    · cases refused
      rfl
  unfold value at failed
  split at failed
  · obtain ⟨_, _, same⟩ := Datum.check_error failed
    cases same
    rfl
  · exact checked failed
  · split at failed
    · exact checked failed
    · cases failed
  · cases failed

/-- If the variable that is found to be of another kind is overridden, its override is refused. -/
theorem check_of_resolve_mismatch {expected : Kind} {found : Found} {shown : Datum}
    (described : catalogue.entryOf? name = some entry)
    (failed : resolve policy catalogue (.data (overrides.put name datum)) =
      .error (.mismatch name expected found shown)) :
    datum.check name entry.kind = .error (.mismatch name expected found shown) := by
  have outcome := outcome_resolveWith policy catalogue (overrides.put name datum)
  have same : resolveWith policy catalogue (overrides.put name datum) =
      .error (.mismatch name expected found shown) := failed
  rw [same] at outcome
  cases outcome with
  | failed scheduled filled described' computed =>
      have named := name_of_value_mismatch computed
      rw [Catalogue.name_of_entryOf? described'] at named
      subst named
      cases described.symm.trans described'
      have given : (overrides.put name datum).find? name = some datum := by
        rw [Bindings.find?_put, if_pos rfl]
      rw [value, Catalogue.name_of_entryOf? described, given] at computed
      exact computed

end EditableTemplate.Resolution
