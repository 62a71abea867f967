/-!
# Bindings

A list of names with a value each, no name twice, in the order in which the names were first bound
(`Bindings`). Binding a name again changes its value and keeps its place (`Bindings.put`), so the
order is that of the first mentions and the values are those of the last
(`Bindings.find?_put`, `Bindings.names_put`).
-/

namespace EditableTemplate

/-- Names with values, without repeated names, in the order of binding. -/
structure Bindings (α : Type) where
  /-- The names and their values. -/
  entries : List (String × α)
  /-- No name is bound twice. -/
  distinct : (entries.map Prod.fst).Nodup
  deriving DecidableEq

namespace Bindings

variable {α β κ : Type}

/-- No bindings. -/
def empty : Bindings α := ⟨[], .nil⟩

instance : Inhabited (Bindings α) := ⟨empty⟩

/-- The bound names. -/
def names (bindings : Bindings α) : List String :=
  bindings.entries.map Prod.fst

/-- The count of bound names. -/
def size (bindings : Bindings α) : Nat :=
  bindings.entries.length

/-- Whether a name is bound. -/
def contains (bindings : Bindings α) (name : String) : Bool :=
  bindings.names.contains name

/-- The value of a name in a list of names with values: the first one. -/
def lookup? (name : String) : List (String × α) → Option α
  | [] => none
  | (key, value) :: rest => if key = name then some value else lookup? name rest

/-- The value of a name. -/
def find? (bindings : Bindings α) (name : String) : Option α :=
  lookup? name bindings.entries

/-- A list of keys with values after binding a key: in its place if it is there, else last. -/
def putEntry [DecidableEq κ] (name : κ) (value : α) : List (κ × α) → List (κ × α)
  | [] => [(name, value)]
  | (key, old) :: rest =>
    if key = name then (key, value) :: rest else (key, old) :: putEntry name value rest

/-- Binding a key adds it last unless it is there. -/
theorem map_fst_putEntry [DecidableEq κ] (name : κ) (value : α) (entries : List (κ × α)) :
    (putEntry name value entries).map Prod.fst =
      if name ∈ entries.map Prod.fst then entries.map Prod.fst
      else entries.map Prod.fst ++ [name] := by
  induction entries with
  | nil => simp [putEntry]
  | cons entry rest ih =>
    obtain ⟨key, old⟩ := entry
    by_cases same : key = name
    · simp [putEntry, same]
    · have other : name ≠ key := fun equal => same equal.symm
      by_cases member : name ∈ rest.map Prod.fst
      · simp [putEntry, same, other, ih, member]
      · simp [putEntry, same, other, ih, member]

/-- Binding a key keeps keys distinct. -/
theorem nodup_putEntry [DecidableEq κ] (name : κ) (value : α) {entries : List (κ × α)}
    (distinct : (entries.map Prod.fst).Nodup) :
    ((putEntry name value entries).map Prod.fst).Nodup := by
  rw [map_fst_putEntry]
  split
  · exact distinct
  · rename_i absent
    rw [List.nodup_append]
    refine ⟨distinct, by simp, ?_⟩
    intro first member second last
    rw [List.mem_singleton.1 last]
    exact fun equal => absent (equal ▸ member)

/-- The bindings after binding a name: a name that is bound keeps its place. -/
def put (bindings : Bindings α) (name : String) (value : α) : Bindings α :=
  ⟨putEntry name value bindings.entries, nodup_putEntry name value bindings.distinct⟩

/-- A name that is bound already stays where it is, another one comes last. -/
theorem names_put (bindings : Bindings α) (name : String) (value : α) :
    (bindings.put name value).names =
      if name ∈ bindings.names then bindings.names else bindings.names ++ [name] :=
  map_fst_putEntry name value bindings.entries

/-- The value found in a list after binding a name. -/
theorem lookup?_putEntry (name other : String) (value : α) (entries : List (String × α)) :
    lookup? other (putEntry name value entries) =
      if name = other then some value else lookup? other entries := by
  induction entries with
  | nil => by_cases same : name = other <;> simp [putEntry, lookup?, same]
  | cons entry rest ih =>
    obtain ⟨key, old⟩ := entry
    by_cases found : key = name <;> by_cases same : name = other <;>
      simp_all [putEntry, lookup?]

/-- Binding a name gives it the value and leaves the others theirs. -/
theorem find?_put (bindings : Bindings α) (name other : String) (value : α) :
    (bindings.put name value).find? other =
      if name = other then some value else bindings.find? other :=
  lookup?_putEntry name other value bindings.entries

/-- The bindings of a list, a later value for a name replacing an earlier one. -/
def ofList (entries : List (String × α)) : Bindings α :=
  entries.foldl (fun bindings entry => bindings.put entry.1 entry.2) empty

/-- The bindings of those names that pass a test. -/
def filter (keep : String → Bool) (bindings : Bindings α) : Bindings α :=
  ⟨bindings.entries.filter fun entry => keep entry.1,
    bindings.distinct.sublist (List.filter_sublist.map Prod.fst)⟩

/-- The same names with other values. -/
def map (f : α → β) (bindings : Bindings α) : Bindings β :=
  ⟨bindings.entries.map fun entry => (entry.1, f entry.2), by
    simpa [List.map_map, Function.comp_def] using bindings.distinct⟩

/-- Changing the values keeps the names. -/
theorem names_map (f : α → β) (bindings : Bindings α) :
    (bindings.map f).names = bindings.names := by
  simp [names, map, List.map_map, Function.comp_def]

/-- The values, in the order of their names. -/
def values (bindings : Bindings α) : List α :=
  bindings.entries.map Prod.snd

end Bindings

end EditableTemplate
