import EditableTemplate.Proofs.Dependency.Order

/-!
# Computing along an order

Entries and values are computed one name after another, each from what is already there. If every
computation from a correct beginning is correct, then the whole row of names is computed correctly,
or the first computation that fails ends it (`Bindings.foldlM_filled`). Along an order of a graph
the beginning holds all that a name is linked to.
-/

namespace EditableTemplate

namespace Bindings

variable {α ε : Type}

/-- Bindings of exactly these names, in this order, whose values are all as they should be. -/
structure Filled (meaning : String → α → Prop) (done : List String) (values : Bindings α) :
    Prop where
  names : values.names = done
  holds : ∀ name value, values.find? name = some value → meaning name value

variable {meaning : String → α → Prop}

theorem filled_empty : Filled meaning [] (empty : Bindings α) where
  names := rfl
  holds := fun _ _ found => nomatch found

/-- One more name, with a value as it should be, keeps the bindings filled. -/
theorem Filled.put {done : List String} {values : Bindings α} {name : String} {value : α}
    (filled : Filled meaning done values) (absent : name ∉ done) (holds : meaning name value) :
    Filled meaning (done ++ [name]) (values.put name value) where
  names := by rw [names_put, filled.names, if_neg absent]
  holds := by
    intro other found stored
    rw [find?_put] at stored
    split at stored
    · rename_i same
      rw [← same, ← Option.some.inj stored]
      exact holds
    · exact filled.holds other found stored

/-- A name that is done has a value as it should be. -/
theorem Filled.exists_of_mem {done : List String} {values : Bindings α} {name : String}
    (filled : Filled meaning done values) (member : name ∈ done) :
    ∃ value, values.find? name = some value ∧ meaning name value := by
  rw [← filled.names] at member
  obtain ⟨value, found⟩ := mem_names_iff.mp member
  exact ⟨value, found, filled.holds name value found⟩

/-- Where the meaning of a name is one value at most, the values are those that the names mean. -/
theorem Filled.find?_eq_some_iff {done : List String} {values : Bindings α} {name : String}
    {value : α} (filled : Filled meaning done values) (member : name ∈ done)
    (unique : ∀ first second, meaning name first → meaning name second → first = second) :
    values.find? name = some value ↔ meaning name value := by
  refine ⟨filled.holds name value, fun holds => ?_⟩
  obtain ⟨found, stored, meant⟩ := filled.exists_of_mem member
  rw [stored, unique found value meant holds]

/-- **Computing along a row of names.** Let `next` compute one name and put its value in, and let
every computation from a correct beginning give a correct value. Then either all names get one, or
the first that fails has only correct values before it and its failure is the result. -/
theorem foldlM_filled {next : Bindings α → String → Except ε (Bindings α)}
    {compute : Bindings α → String → Except ε α} (names : List String) :
    ∀ (done : List String) (values : Bindings α), Filled meaning done values →
      (done ++ names).Nodup →
      (∀ values, ∀ name ∈ names, next values name = (compute values name).map (values.put name)) →
      (∀ before name after values value, names = before ++ name :: after →
        Filled meaning (done ++ before) values → compute values name = .ok value →
        meaning name value) →
      (∃ result, names.foldlM next values = .ok result ∧ Filled meaning (done ++ names) result) ∨
        ∃ before name after earlier failure, names = before ++ name :: after ∧
          before.foldlM next values = .ok earlier ∧ Filled meaning (done ++ before) earlier ∧
          compute earlier name = .error failure ∧ names.foldlM next values = .error failure := by
  induction names with
  | nil =>
      intro done values filled _ _ _
      exact .inl ⟨values, rfl, by rwa [List.append_nil]⟩
  | cons name rest ih =>
      intro done values filled distinct steps sound
      have moved := steps values name List.mem_cons_self
      cases computed : compute values name with
      | error failure =>
          refine .inr ⟨[], name, rest, values, failure, rfl, rfl, ?_, computed, ?_⟩
          · rwa [List.append_nil]
          · rw [List.foldlM_cons, moved, computed]
            rfl
      | ok value =>
          -- a new name is put at the end, so the names stay in the order of the row
          have absent : name ∉ done := by
            intro member
            exact (List.nodup_append.mp distinct).2.2 name member name List.mem_cons_self rfl
          have start : Filled meaning (done ++ []) values := by rwa [List.append_nil]
          have grown := filled.put absent (sound [] name rest values value rfl start computed)
          have onward : (name :: rest).foldlM next values =
              rest.foldlM next (values.put name value) := by
            rw [List.foldlM_cons, moved, computed]
            rfl
          have regroup : ∀ more, done ++ [name] ++ more = done ++ name :: more := by simp
          have tail := ih (done ++ [name]) (values.put name value) grown
            (by rw [regroup]; exact distinct)
            (fun values other member => steps values other (List.mem_cons_of_mem _ member))
            (fun before other after values found split filled =>
              sound (name :: before) other after values found (by rw [split]; rfl)
                (by rw [← regroup]; exact filled))
          rw [onward]
          rcases tail with ⟨result, ran, whole⟩ |
            ⟨before, other, after, earlier, failure, split, ran, whole, failed, ended⟩
          · exact .inl ⟨result, ran, by rw [← regroup]; exact whole⟩
          · refine .inr ⟨name :: before, other, after, earlier, failure, by rw [split]; rfl, ?_,
              by rw [← regroup]; exact whole, failed, ended⟩
            rw [List.foldlM_cons, moved, computed]
            exact ran

end Bindings

end EditableTemplate
