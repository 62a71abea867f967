import EditableTemplate.Bindings
import Mathlib.Data.List.Nodup

/-!
# Looking names up

A name is bound exactly when it has a value, and the entries of bindings are the pairs of a name
with the value found for it. So bindings that differ only in their order answer every look-up alike
(`Bindings.find?_eq_of_perm`), and the bindings of a list answer with the last value for a name
(`Bindings.find?_ofList`).
-/

namespace EditableTemplate.Bindings

variable {α β : Type}

/-- A lookup finds nothing exactly where no entry has the name. -/
theorem lookup?_eq_none_iff {name : String} {entries : List (String × α)} :
    lookup? name entries = none ↔ name ∉ entries.map Prod.fst := by
  induction entries with
  | nil => simp [lookup?]
  | cons entry rest ih =>
      obtain ⟨key, value⟩ := entry
      by_cases same : key = name
      · simp [same, lookup?]
      · have other : name ≠ key := fun equal => same equal.symm
        simpa [same, other, lookup?] using ih

/-- What a lookup finds is an entry of the list. -/
theorem mem_of_lookup? {name : String} {value : α} {entries : List (String × α)}
    (found : lookup? name entries = some value) : (name, value) ∈ entries := by
  induction entries with
  | nil => simp [lookup?] at found
  | cons entry rest ih =>
      obtain ⟨key, first⟩ := entry
      by_cases same : key = name
      · have equal : first = value := by simpa [same, lookup?] using found
        rw [same, equal]
        exact List.mem_cons_self
      · exact List.mem_cons_of_mem _ (ih (by simpa [same, lookup?] using found))

/-- Among entries with distinct names a lookup finds each of them. -/
theorem lookup?_of_mem {name : String} {value : α} {entries : List (String × α)}
    (distinct : (entries.map Prod.fst).Nodup) (member : (name, value) ∈ entries) :
    lookup? name entries = some value := by
  induction entries with
  | nil => cases member
  | cons entry rest ih =>
      obtain ⟨key, first⟩ := entry
      obtain ⟨absent, distinct⟩ := List.nodup_cons.mp distinct
      rcases List.mem_cons.mp member with equal | inside
      · cases equal
        simp [lookup?]
      · have other : key ≠ name := by
          rintro rfl
          exact absent (List.mem_map.mpr ⟨(key, value), inside, rfl⟩)
        simpa [other, lookup?] using ih distinct inside

/-- A name is bound to a value exactly where the two are an entry. -/
theorem find?_eq_some_iff {bindings : Bindings α} {name : String} {value : α} :
    bindings.find? name = some value ↔ (name, value) ∈ bindings.entries :=
  ⟨mem_of_lookup?, lookup?_of_mem bindings.distinct⟩

/-- The names that are not bound are those without a value. -/
theorem find?_eq_none_iff {bindings : Bindings α} {name : String} :
    bindings.find? name = none ↔ name ∉ bindings.names :=
  lookup?_eq_none_iff

/-- The names of bindings are those that have a value. -/
theorem mem_names_iff {bindings : Bindings α} {name : String} :
    name ∈ bindings.names ↔ ∃ value, bindings.find? name = some value := by
  rw [← Option.isSome_iff_exists, Option.isSome_iff_ne_none, ne_eq, find?_eq_none_iff, not_not]

theorem mem_names_of_find? {bindings : Bindings α} {name : String} {value : α}
    (found : bindings.find? name = some value) : name ∈ bindings.names :=
  mem_names_iff.mpr ⟨value, found⟩

/-- Bindings contain exactly their names. -/
@[simp]
theorem contains_eq_true_iff {bindings : Bindings α} {name : String} :
    bindings.contains name = true ↔ name ∈ bindings.names := by
  simp [contains]

@[simp]
theorem find?_empty (name : String) : (empty : Bindings α).find? name = none :=
  rfl

/-- No name is bound twice. -/
@[simp]
theorem nodup_names (bindings : Bindings α) : bindings.names.Nodup :=
  bindings.distinct

theorem find?_map (f : α → β) (bindings : Bindings α) (name : String) :
    (bindings.map f).find? name = (bindings.find? name).map f := by
  cases found : bindings.find? name with
  | none => exact find?_eq_none_iff.mpr (by rw [names_map]; exact find?_eq_none_iff.mp found)
  | some value =>
      apply find?_eq_some_iff.mpr
      exact List.mem_map.mpr ⟨(name, value), find?_eq_some_iff.mp found, rfl⟩

/-- A filter on the names leaves the values of the names it keeps. -/
theorem find?_filter_of_keep {keep : String → Bool} {name : String} (kept : keep name = true)
    (bindings : Bindings α) : (bindings.filter keep).find? name = bindings.find? name := by
  apply Option.ext
  intro value
  simp [find?_eq_some_iff, filter, kept]

/-- The order of the entries does not matter to what a name is bound to. -/
theorem find?_eq_of_perm {first second : Bindings α} (same : first.entries.Perm second.entries)
    (name : String) : first.find? name = second.find? name := by
  apply Option.ext
  intro value
  rw [find?_eq_some_iff, find?_eq_some_iff, same.mem_iff]

/-- In a concatenation the first list is searched before the second. -/
theorem lookup?_append (name : String) (first second : List (String × α)) :
    lookup? name (first ++ second) = (lookup? name first).or (lookup? name second) := by
  induction first with
  | nil => rfl
  | cons entry rest ih =>
      obtain ⟨key, value⟩ := entry
      by_cases same : key = name <;> simp [same, lookup?, ih]

/-- Binding the entries of a list one after another, the last value for a name counts. -/
theorem find?_foldl_put (entries : List (String × α)) (bindings : Bindings α) (name : String) :
    (entries.foldl (fun result entry => result.put entry.1 entry.2) bindings).find? name =
      (lookup? name entries.reverse).or (bindings.find? name) := by
  induction entries generalizing bindings with
  | nil => rfl
  | cons entry rest ih =>
      obtain ⟨key, value⟩ := entry
      rw [List.foldl_cons, ih, find?_put, List.reverse_cons, lookup?_append]
      by_cases same : key = name <;> simp [same, lookup?]

/-- Of several values for a name the last one counts. -/
theorem find?_ofList (entries : List (String × α)) (name : String) :
    (ofList entries).find? name = lookup? name entries.reverse := by
  rw [ofList, find?_foldl_put, find?_empty, Option.or_none]

/-- Bindings are given by their names in order and the value of each. -/
theorem entries_eq_filterMap (bindings : Bindings α) :
    bindings.entries = bindings.names.filterMap fun name =>
      (bindings.find? name).map fun value => (name, value) := by
  have each : ∀ entry ∈ bindings.entries,
      ((bindings.find? entry.1).map fun value => (entry.1, value)) = some entry := by
    intro entry member
    rw [find?_eq_some_iff.mpr member]
    rfl
  rw [names, List.filterMap_map]
  exact ((List.filterMap_congr each).trans List.filterMap_some).symm

/-- Bindings are their names in order with what is found for each. -/
theorem eq_of_find?_eq {first second : Bindings α} (order : first.names = second.names)
    (same : ∀ name, first.find? name = second.find? name) : first = second := by
  have entries : first.entries = second.entries := by
    rw [entries_eq_filterMap, entries_eq_filterMap second, order]
    exact List.filterMap_congr fun name _ => by rw [same]
  cases first
  cases second
  cases entries
  rfl

end EditableTemplate.Bindings
