import Mathlib.Data.List.Forall2

/-!
# Computations that may fail

A sequence of computations has a result exactly if each of them has: the first gives the value that
the next one starts from (`Except.bind_eq_ok`), and along a list every item gives its own
(`Except.mapM_eq_ok`) or moves a state on (`Except.foldlM_invariant`). What holds of all failures of
every computation holds of the failures of the sequence (`Except.FailsOnly.bind`).
-/

namespace Except

variable {ε α β : Type}

/-- Results that can be compared show whether a computation has a given one. -/
instance decidableEqOk [DecidableEq α] (outcome : Except ε α) (result : α) :
    Decidable (outcome = .ok result) :=
  match outcome with
  | .ok value => decidable_of_iff (value = result) ⟨congrArg Except.ok, Except.ok.inj⟩
  | .error _ => isFalse nofun

/-- Failures that can be compared show whether a computation has a given one. -/
instance decidableEqError [DecidableEq ε] (outcome : Except ε α) (failure : ε) :
    Decidable (outcome = .error failure) :=
  match outcome with
  | .ok _ => isFalse nofun
  | .error other => decidable_of_iff (other = failure) ⟨congrArg Except.error, Except.error.inj⟩

/-- Two computations in sequence succeed if both do. -/
theorem bind_eq_ok {first : Except ε α} {next : α → Except ε β} {result : β} :
    first >>= next = .ok result ↔ ∃ value, first = .ok value ∧ next value = .ok result := by
  cases first with
  | error failure => exact ⟨nofun, nofun⟩
  | ok value =>
      constructor
      · intro ran
        exact ⟨value, rfl, ran⟩
      · rintro ⟨_, ⟨⟩, ran⟩
        exact ran

/-- Two computations in sequence fail with the first failure. -/
theorem bind_eq_error {first : Except ε α} {next : α → Except ε β} {failure : ε} :
    first >>= next = .error failure ↔
      first = .error failure ∨ ∃ value, first = .ok value ∧ next value = .error failure := by
  cases first with
  | error other =>
      constructor
      · rintro ⟨⟩
        exact .inl rfl
      · rintro (⟨⟨⟩⟩ | ⟨_, ⟨⟩, _⟩)
        rfl
  | ok value =>
      constructor
      · intro failed
        exact .inr ⟨value, rfl, failed⟩
      · rintro (⟨⟨⟩⟩ | ⟨_, ⟨⟩, failed⟩)
        exact failed

/-- A mapped computation succeeds if it does without the map. -/
theorem map_eq_ok {first : Except ε α} {f : α → β} {result : β} :
    first.map f = .ok result ↔ ∃ value, first = .ok value ∧ f value = result := by
  cases first with
  | error failure => exact ⟨nofun, nofun⟩
  | ok value => simp [Except.map]

theorem map_eq_error {first : Except ε α} {f : α → β} {failure : ε} :
    first.map f = .error failure ↔ first = .error failure := by
  cases first with
  | error other => simp [Except.map]
  | ok value => exact ⟨nofun, nofun⟩

theorem mapError_eq_ok {ε' : Type} {first : Except ε α} {f : ε → ε'} {result : α} :
    first.mapError f = .ok result ↔ first = .ok result := by
  cases first with
  | error failure => exact ⟨nofun, nofun⟩
  | ok value => simp [Except.mapError]

/-- A computation along a list succeeds if it does for every item. -/
theorem mapM_eq_ok {f : α → Except ε β} {items : List α} {results : List β} :
    items.mapM f = .ok results ↔
      List.Forall₂ (fun item result => f item = .ok result) items results := by
  induction items generalizing results with
  | nil =>
      rw [List.mapM_nil, List.forall₂_nil_left_iff]
      exact ⟨fun same => (Except.ok.inj same).symm, fun same => congrArg _ same.symm⟩
  | cons item rest ih =>
      rw [List.mapM_cons, bind_eq_ok, List.forall₂_cons_left_iff]
      constructor
      · rintro ⟨value, ran, onward⟩
        obtain ⟨values, others, same⟩ := bind_eq_ok.mp onward
        exact ⟨value, values, ran, ih.mp others, (Except.ok.inj same).symm⟩
      · rintro ⟨value, values, ran, others, rfl⟩
        exact ⟨value, ran, bind_eq_ok.mpr ⟨values, ih.mpr others, rfl⟩⟩

/-- The first item that fails ends the sequence with its failure. -/
theorem mapM_eq_error {f : α → Except ε β} {items : List α} {failure : ε} :
    items.mapM f = .error failure ↔
      ∃ before item after, items = before ++ item :: after ∧ f item = .error failure ∧
        ∀ earlier ∈ before, ∃ result, f earlier = .ok result := by
  induction items with
  | nil => simp [pure, Except.pure]
  | cons item rest ih =>
      rw [List.mapM_cons, bind_eq_error]
      constructor
      · rintro (failed | ⟨value, ran, onward⟩)
        · exact ⟨[], item, rest, rfl, failed, nofun⟩
        · obtain failed | ⟨_, _, ⟨⟩⟩ := bind_eq_error.mp onward
          obtain ⟨before, other, after, rfl, failed, earlier⟩ := ih.mp failed
          exact ⟨item :: before, other, after, rfl, failed,
            List.forall_mem_cons.mpr ⟨⟨value, ran⟩, earlier⟩⟩
      · rintro ⟨before, other, after, parts, failed, earlier⟩
        cases before with
        | nil =>
            cases parts
            exact .inl failed
        | cons first before =>
            cases parts
            obtain ⟨⟨value, ran⟩, earlier⟩ := List.forall_mem_cons.mp earlier
            have onward := ih.mpr ⟨before, other, after, rfl, failed, earlier⟩
            exact .inr ⟨value, ran, bind_eq_error.mpr (.inl onward)⟩

/-- Every result is that of an item. -/
theorem exists_of_mem_mapM {f : α → Except ε β} {items : List α} {results : List β}
    (ran : items.mapM f = .ok results) {result : β} (member : result ∈ results) :
    ∃ item ∈ items, f item = .ok result := by
  rw [mapM_eq_ok] at ran
  induction ran with
  | nil => cases member
  | @cons item _ rest _ gives _ ih =>
      rcases List.mem_cons.mp member with rfl | later
      · exact ⟨item, List.mem_cons_self, gives⟩
      · obtain ⟨other, listed, found⟩ := ih later
        exact ⟨other, List.mem_cons_of_mem _ listed, found⟩

/-- Every item has its result, at the same place. -/
theorem getElem?_of_mapM {f : α → Except ε β} {items : List α} {results : List β}
    (ran : items.mapM f = .ok results) {index : Nat} {item : α}
    (listed : items[index]? = some item) :
    ∃ result, results[index]? = some result ∧ f item = .ok result := by
  rw [mapM_eq_ok] at ran
  induction ran generalizing index with
  | nil => cases listed
  | cons gives _ ih =>
      cases index with
      | zero =>
          cases listed
          exact ⟨_, rfl, gives⟩
      | succ index => exact ih listed

/-- A property that every step keeps holds of the result. -/
theorem foldlM_invariant {property : α → Prop} {step : α → β → Except ε α}
    (keeps : ∀ state item next, property state → step state item = .ok next → property next)
    {items : List β} {start result : α} (holds : property start)
    (ran : items.foldlM step start = .ok result) : property result := by
  induction items generalizing start with
  | nil =>
      cases ran
      exact holds
  | cons item rest ih =>
      obtain ⟨next, made, onward⟩ := bind_eq_ok.mp ran
      exact ih (keeps start item next holds made) onward

/-- Every failure of an outcome has a property. -/
def FailsOnly (property : ε → Prop) (outcome : Except ε α) : Prop :=
  ∀ failure, outcome = .error failure → property failure

variable {property : ε → Prop}

theorem failsOnly_ok (result : α) : FailsOnly property (.ok result : Except ε α) :=
  nofun

theorem failsOnly_error {failure : ε} (holds : property failure) :
    FailsOnly property (.error failure : Except ε α) := by
  rintro _ ⟨⟩
  exact holds

/-- Two computations in sequence fail only as each of them does. -/
theorem FailsOnly.bind {first : Except ε α} {next : α → Except ε β}
    (fails : FailsOnly property first)
    (onward : ∀ result, first = .ok result → FailsOnly property (next result)) :
    FailsOnly property (first >>= next) := by
  cases first with
  | error failure =>
      rintro _ ⟨⟩
      exact fails failure rfl
  | ok result => exact onward result rfl

theorem FailsOnly.map {first : Except ε α} {f : α → β} (fails : FailsOnly property first) :
    FailsOnly property (first.map f) := by
  cases first with
  | error failure =>
      rintro _ ⟨⟩
      exact fails failure rfl
  | ok result => exact nofun

theorem failsOnly_mapError {ε' : Type} {first : Except ε' α} {f : ε' → ε}
    (holds : ∀ failure, property (f failure)) : FailsOnly property (first.mapError f) := by
  cases first with
  | error failure => exact failsOnly_error (holds failure)
  | ok result => exact nofun

/-- Actions in a row fail only as each of them does. -/
theorem failsOnly_forM {items : List β} {action : β → Except ε PUnit}
    (fails : ∀ item ∈ items, FailsOnly property (action item)) :
    FailsOnly property (items.forM action) := by
  induction items with
  | nil => exact nofun
  | cons item rest ih =>
      apply (fails item List.mem_cons_self).bind
      exact fun _ _ => ih fun other member => fails other (List.mem_cons_of_mem _ member)

/-- A fold fails only as its steps do. -/
theorem failsOnly_foldlM {step : α → β → Except ε α}
    (fails : ∀ state item, FailsOnly property (step state item)) (items : List β) (start : α) :
    FailsOnly property (items.foldlM step start) := by
  induction items generalizing start with
  | nil => exact nofun
  | cons item rest ih => exact (fails start item).bind fun next _ => ih next

end Except
