import EditableTemplate.Override.Assignment
import EditableTemplate.Proofs.Catalogue.Reference
import EditableTemplate.Proofs.Except
import EditableTemplate.Proofs.Text.Blank

/-!
# What assignments come to

Of the items that give a name a text only the last one counts (`Assignments.LastGives`), and it
counts more than what the name had before. So the overrides have the reading of the last text for
every name that is assigned and are as before for every other one (`Assignments.Overlays`), and only
a last text for a declared name that is no value of its kind can stand in the way. An item that is
replaced by a later one, or an override that is replaced by an item, is not looked at
(`Assignments.build_overlays`).
-/

namespace EditableTemplate

/-- Computing a value for each name and putting it in gives every name its value and leaves the
others theirs, or else one of the computations fails. -/
theorem Bindings.foldlM_put {α β ε : Type} (compute : String → α → Except ε β) :
    ∀ (entries : List (String × α)) (base : Bindings β), (entries.map Prod.fst).Nodup →
      (∃ result, entries.foldlM (fun bindings entry =>
          (compute entry.1 entry.2).map (bindings.put entry.1)) base = .ok result ∧
        (∀ name given, lookup? name entries = some given →
          ∃ value, compute name given = .ok value ∧ result.find? name = some value) ∧
        ∀ name, lookup? name entries = none → result.find? name = base.find? name) ∨
      ∃ name given failure, lookup? name entries = some given ∧
        compute name given = .error failure ∧
        entries.foldlM (fun bindings entry =>
          (compute entry.1 entry.2).map (bindings.put entry.1)) base = .error failure
  | [], base, _ => .inl ⟨base, rfl, nofun, fun _ _ => rfl⟩
  | (key, first) :: rest, base, distinct => by
      obtain ⟨absent, distinct⟩ := List.nodup_cons.mp distinct
      have apart : lookup? key rest = none := lookup?_eq_none_iff.mpr absent
      have other : ∀ {name given}, lookup? name rest = some given → key ≠ name := by
        rintro name given found rfl
        cases apart.symm.trans found
      rw [List.foldlM_cons]
      cases computed : compute key first with
      | error failure => exact .inr ⟨key, first, failure, by simp [lookup?], computed, rfl⟩
      | ok value =>
          rcases foldlM_put compute rest (base.put key value) distinct with
            ⟨result, ran, assigned, kept⟩ | ⟨name, given, failure, found, failed, ended⟩
          · refine .inl ⟨result, ran, ?_, ?_⟩
            · intro name given found
              rw [lookup?] at found
              split at found
              · rename_i same
                cases same
                cases found
                refine ⟨value, computed, ?_⟩
                rw [kept key apart, find?_put, if_pos rfl]
              · exact assigned name given found
            · intro name free
              rw [lookup?] at free
              split at free
              · cases free
              · rename_i different
                rw [kept name free, find?_put, if_neg different]
          · refine .inr ⟨name, given, failure, ?_, failed, ended⟩
            rw [lookup?, if_neg (other found)]
            exact found

namespace Assignments

variable {catalogue : Catalogue} {items items' : List String} {item name text : String}
  {assignments : Assignments} {base base' overrides : Bindings Datum}

/-! ## Items -/

/-- An item gives a name a text: it is the name, perhaps between blanks, the first equals sign, and
the text. -/
structure Gives (item name text : String) : Prop where
  parts : ∃ before, item.toList = before ++ '=' :: text.toList ∧ '=' ∉ before ∧
    Text.Trimmed before name.toList
  named : name ≠ ""

/-- An item has no equals sign, or nothing but blanks before the first one. -/
def IsIdle (item : String) : Prop :=
  '=' ∉ item.toList ∨ ∃ blanks text, item.toList = blanks ++ '=' :: text ∧
    ∀ c ∈ blanks, Text.isBlank c = true

/-- An item is not split if it has no equals sign. -/
theorem split?_eq_none_iff {chars : List Char} : split? chars = none ↔ '=' ∉ chars := by
  induction chars with
  | nil => simp [split?]
  | cons c rest ih =>
      by_cases sign : c = '='
      · simp [split?, sign]
      · simp [split?, sign, ih, Ne.symm sign]

/-- An item is split at its first equals sign. -/
theorem split?_eq_some_iff {chars before after : List Char} :
    split? chars = some (before, after) ↔ chars = before ++ '=' :: after ∧ '=' ∉ before := by
  induction chars generalizing before with
  | nil => simp [split?]
  | cons c rest ih =>
      rw [split?]
      split
      · rename_i sign
        subst sign
        cases before with
        | nil => simp [eq_comm]
        | cons d before => simp +contextual [eq_comm]
      · rename_i other
        rw [Option.map_eq_some_iff]
        constructor
        · rintro ⟨⟨first, last⟩, found, ⟨⟩⟩
          obtain ⟨rfl, absent⟩ := ih.mp found
          exact ⟨rfl, by simpa [Ne.symm other] using absent⟩
        · rintro ⟨parts, absent⟩
          cases before with
          | nil =>
              cases parts
              exact (other rfl).elim
          | cons d before =>
              cases parts
              exact ⟨_, ih.mpr ⟨rfl, fun member => absent (List.mem_cons_of_mem _ member)⟩, rfl⟩

/-- Nothing is left of a text by trimming if it is blank. -/
theorem trim_eq_nil_iff {chars : List Char} :
    Text.trim chars = [] ↔ ∀ c ∈ chars, Text.isBlank c = true := by
  constructor
  · intro nothing
    obtain ⟨before, after, parts, leading, trailing⟩ := (Text.trimmed_trim chars).between
    rw [nothing, List.append_nil] at parts
    rw [parts]
    exact List.forall_mem_append.mpr ⟨leading, trailing⟩
  · intro blank
    exact Text.Trimmed.trim_eq ⟨⟨chars, [], by simp, blank, nofun⟩, nofun, nofun⟩

/-- An item with an equals sign is idle if what stands before it is blank. -/
theorem isIdle_of_split? {before after : List Char}
    (split : split? item.toList = some (before, after)) :
    IsIdle item ↔ Text.trim before = [] := by
  obtain ⟨parts, absent⟩ := split?_eq_some_iff.mp split
  have signed : '=' ∈ item.toList := by
    rw [parts]
    exact List.mem_append_right before List.mem_cons_self
  rw [trim_eq_nil_iff]
  constructor
  · rintro (unsigned | ⟨blanks, text, parts', blank⟩)
    · exact (unsigned signed).elim
    · have first : '=' ∉ blanks := fun member => absurd (blank _ member) (by decide)
      have same := split?_eq_some_iff.mpr ⟨parts', first⟩
      rw [split] at same
      cases same
      exact blank
  · exact fun blank => .inr ⟨before, after, parts, blank⟩

/-- An item is refused if it is idle, and the fault has the item. -/
theorem readItem_eq_error_iff {fault : AssignmentFault} :
    readItem item = .error fault ↔ fault = ⟨item⟩ ∧ IsIdle item := by
  unfold readItem
  split
  · rename_i unsigned
    have idle : IsIdle item := .inl (split?_eq_none_iff.mp unsigned)
    simp [idle, eq_comm]
  · rename_i before after split
    split
    · rename_i nothing
      simp [(isIdle_of_split? split).mpr nothing, eq_comm]
    · rename_i something
      simp only [reduceCtorEq, false_iff, not_and]
      intro _ idle
      exact something ((isIdle_of_split? split).mp idle)

/-- An item is read as what it gives. -/
theorem readItem_eq_ok_iff : readItem item = .ok (name, text) ↔ Gives item name text := by
  constructor
  · intro read
    unfold readItem at read
    split at read
    · cases read
    · rename_i before after split
      split at read
      · cases read
      · rename_i something
        cases read
        obtain ⟨parts, absent⟩ := split?_eq_some_iff.mp split
        refine ⟨⟨before, ?_, absent, ?_⟩, ?_⟩
        · rw [String.toList_ofList]
          exact parts
        · rw [String.toList_ofList]
          exact Text.trimmed_trim before
        · intro nothing
          exact something (by simpa using congrArg String.toList nothing)
  · rintro ⟨⟨before, parts, absent, trimmed⟩, named⟩
    have left := trimmed.trim_eq
    unfold readItem
    rw [split?_eq_some_iff.mpr ⟨parts, absent⟩]
    simp only [left]
    split
    · rename_i nothing
      exact (named (by simpa using nothing)).elim
    · simp

/-- Every item is idle or gives a name a text. -/
theorem exists_gives_iff : (∃ name text, Gives item name text) ↔ ¬IsIdle item := by
  constructor
  · rintro ⟨name, text, gives⟩ idle
    cases (readItem_eq_ok_iff.mpr gives).symm.trans (readItem_eq_error_iff.mpr ⟨rfl, idle⟩)
  · intro busy
    cases read : readItem item with
    | ok given => exact ⟨_, _, readItem_eq_ok_iff.mp read⟩
    | error fault => exact (busy (readItem_eq_error_iff.mp read).2).elim

/-! ## Rows of items -/

/-- An item gives a name a text, and no item after it gives that name any. -/
def LastGives (items : List String) (name text : String) : Prop :=
  ∃ before item after, items = before ++ item :: after ∧ Gives item name text ∧
    ∀ later ∈ after, ∀ other, ¬Gives later name other

/-- The text that an item gives a name. -/
def textGiven? (name item : String) : Option String :=
  match readItem item with
  | .ok (key, text) => if key = name then some text else none
  | .error _ => none

/-- The text given to a name is what the item gives it. -/
theorem textGiven?_eq_some_iff : textGiven? name item = some text ↔ Gives item name text := by
  rw [← readItem_eq_ok_iff, textGiven?]
  cases read : readItem item with
  | error fault => simp
  | ok given => simp [Prod.ext_iff]

/-- No text is given to a name if the item gives it none. -/
theorem textGiven?_eq_none_iff :
    textGiven? name item = none ↔ ∀ text, ¬Gives item name text := by
  simp only [Option.eq_none_iff_forall_ne_some, ne_eq, textGiven?_eq_some_iff]

/-- The text of a name is that of the first item that gives it one. -/
theorem lookup?_of_forall₂ {given : List (String × String)}
    (read : List.Forall₂ (fun item entry => readItem item = .ok entry) items given) :
    Bindings.lookup? name given = items.findSome? (textGiven? name) := by
  induction read with
  | nil => rfl
  | @cons item entry items given first _ ih =>
      by_cases same : entry.1 = name <;>
        simp [Bindings.lookup?, textGiven?, first, same, ih]

/-- The text of a name is the one that the last item for it gives. -/
theorem find?_read (read : Assignments.read items = .ok assignments) :
    assignments.find? name = some text ↔ LastGives items name text := by
  obtain ⟨given, ran, rfl⟩ := Except.map_eq_ok.mp read
  have reversed := List.rel_reverse (Except.mapM_eq_ok.mp ran)
  rw [Bindings.find?_ofList, lookup?_of_forall₂ reversed, List.findSome?_eq_some_iff]
  simp only [textGiven?_eq_some_iff, textGiven?_eq_none_iff]
  constructor
  · rintro ⟨after, item, before, parts, gives, free⟩
    refine ⟨before.reverse, item, after.reverse, ?_, gives, ?_⟩
    · simpa using congrArg List.reverse parts
    · exact fun later member => free later (List.mem_reverse.mp member)
  · rintro ⟨before, item, after, rfl, gives, free⟩
    refine ⟨after.reverse, item, before.reverse, by simp, gives, ?_⟩
    exact fun later member => free later (List.mem_reverse.mp member)

/-- A name has no text if no item gives it one. -/
theorem find?_read_eq_none (read : Assignments.read items = .ok assignments) :
    assignments.find? name = none ↔ ∀ text, ¬LastGives items name text := by
  simp only [Option.eq_none_iff_forall_ne_some, ne_eq, find?_read read]

/-- The first idle item is the fault of a row. -/
theorem read_eq_error_iff {fault : AssignmentFault} :
    Assignments.read items = .error fault ↔
      ∃ before item after, items = before ++ item :: after ∧ fault = ⟨item⟩ ∧ IsIdle item ∧
        ∀ earlier ∈ before, ¬IsIdle earlier := by
  have busy : ∀ item, (∃ result, readItem item = .ok result) ↔ ¬IsIdle item := by
    intro item
    rw [← exists_gives_iff, Prod.exists]
    simp only [readItem_eq_ok_iff]
  rw [Assignments.read, Except.map_eq_error, Except.mapM_eq_error]
  simp only [readItem_eq_error_iff, busy, and_assoc]

/-! ## Readings -/

/-- What the text that is given to a name stands for: a value of the kind of the variable, or the
text itself if no variable has the name. -/
inductive Reads (catalogue : Catalogue) (name text : String) : Datum → Prop
  | declared {entry : Entry} {value : Value} (described : catalogue.entryOf? name = some entry)
      (read : Value.readText name text entry.kind = .ok value) :
      Reads catalogue name text (.typed value)
  | undeclared (absent : catalogue.entryOf? name = none) : Reads catalogue name text (.text text)

/-- The kind of a name is that of its entry. -/
theorem find?_kinds (catalogue : Catalogue) (name : String) :
    (kinds catalogue).find? name = (catalogue.entryOf? name).map Entry.kind := by
  have along : ∀ entries : List Entry,
      Bindings.lookup? name (entries.map fun entry => (entry.name, entry.kind)) =
        (entries.find? fun entry => entry.name = name).map Entry.kind := by
    intro entries
    induction entries with
    | nil => rfl
    | cons entry rest ih =>
        by_cases same : entry.name = name <;> simp [same, Bindings.lookup?, ih]
  rw [kinds, Bindings.find?_ofList, ← List.map_reverse, along, Catalogue.entryOf?]

/-- A text becomes the datum that it stands for. -/
theorem datum_eq_ok_iff {given : Datum} :
    datum (kinds catalogue) name text = .ok given ↔ Reads catalogue name text given := by
  rw [datum, find?_kinds]
  cases described : catalogue.entryOf? name with
  | none =>
      refine ⟨fun read => ?_, fun reads => ?_⟩
      · cases read
        exact .undeclared described
      · cases reads with
        | declared described' _ => cases described.symm.trans described'
        | undeclared _ => rfl
  | some entry =>
      refine ⟨fun read => ?_, fun reads => ?_⟩
      · obtain ⟨value, stands, rfl⟩ := Except.map_eq_ok.mp read
        exact .declared described stands
      · cases reads with
        | declared described' stands =>
            cases described.symm.trans described'
            exact Except.map_eq_ok.mpr ⟨_, stands, rfl⟩
        | undeclared absent => cases absent.symm.trans described

/-- A text is refused if the kind of its variable refuses it. -/
theorem datum_eq_error_iff {failure : Failure} :
    datum (kinds catalogue) name text = .error failure ↔
      ∃ entry, catalogue.entryOf? name = some entry ∧
        Value.readText name text entry.kind = .error failure := by
  rw [datum, find?_kinds]
  cases described : catalogue.entryOf? name with
  | none => simp
  | some entry => simp [Except.map_eq_error]

/-- A text that is no value of a kind fails as one. -/
theorem mismatch_of_readText {kind : Kind} {failure : Failure}
    (failed : Value.readText name text kind = .error failure) :
    ∃ found, failure = .mismatch name kind found (.text text) := by
  have checked : ∀ kind, (Value.string text).check name kind = .error failure →
      ∃ found, failure = .mismatch name kind found (.text text) := by
    intro kind refused
    unfold Value.check at refused
    split at refused
    · cases refused
    · exact ⟨_, (Except.error.inj refused).symm⟩
  cases kind with
  | string => exact checked .string failed
  | color => exact checked .color failed
  | number =>
      rw [Value.readText] at failed
      split at failed
      · cases failed
      · exact ⟨_, (Except.error.inj failed).symm⟩
      · exact ⟨_, (Except.error.inj failed).symm⟩
  | boolean =>
      rw [Value.readText] at failed
      split at failed
      · cases failed
      · exact ⟨_, (Except.error.inj failed).symm⟩

/-! ## Overrides -/

/-- The overrides that items come to over others: every name that an item gives a text has the
reading of the last one, and every other name is as before. -/
structure Overlays (catalogue : Catalogue) (items : List String)
    (base overrides : Bindings Datum) : Prop where
  names : ∀ name, name ∈ overrides.names ↔
    name ∈ base.names ∨ ∃ text, LastGives items name text
  assigned : ∀ name text, LastGives items name text →
    ∃ datum, Reads catalogue name text datum ∧ overrides.find? name = some datum
  kept : ∀ name, (∀ text, ¬LastGives items name text) →
    overrides.find? name = base.find? name

/-- Every name has the same last text in two rows of items, or none in either. -/
def SameLast (items items' : List String) : Prop :=
  ∀ name text, LastGives items' name text ↔ LastGives items name text

/-- Two rows of overrides are the same as far as names go that no item gives a text. -/
def AgreeApart (items : List String) (base base' : Bindings Datum) : Prop :=
  ∀ name, (∀ text, ¬LastGives items name text) → base'.find? name = base.find? name

/-- A text stands for one datum. -/
theorem Reads.unique {first second : Datum} (left : Reads catalogue name text first)
    (right : Reads catalogue name text second) : first = second :=
  Except.ok.inj ((datum_eq_ok_iff.mpr left).symm.trans (datum_eq_ok_iff.mpr right))

/-- Building the overrides gives what the items come to, or a last text can not be read. -/
theorem build_cases (catalogue : Catalogue) (base : Bindings Datum)
    (read : Assignments.read items = .ok assignments) :
    (∃ overrides, build catalogue assignments base = .ok overrides ∧
      Overlays catalogue items base overrides) ∨
    ∃ name text failure, LastGives items name text ∧
      datum (kinds catalogue) name text = .error failure ∧
      build catalogue assignments base = .error failure := by
  rcases Bindings.foldlM_put (datum (kinds catalogue)) assignments.entries base
      assignments.distinct with
    ⟨overrides, built, assigned, kept⟩ | ⟨name, text, failure, given, failed, ended⟩
  · have present : ∀ name text, LastGives items name text →
        ∃ datum, Reads catalogue name text datum ∧ overrides.find? name = some datum := by
      intro name text last
      obtain ⟨datum, stands, found⟩ := assigned name text ((find?_read read).mpr last)
      exact ⟨datum, datum_eq_ok_iff.mp stands, found⟩
    have free : ∀ name, (∀ text, ¬LastGives items name text) →
        overrides.find? name = base.find? name :=
      fun name none => kept name ((find?_read_eq_none read).mpr none)
    refine .inl ⟨overrides, built, ⟨fun name => ?_, present, free⟩⟩
    by_cases last : ∃ text, LastGives items name text
    · obtain ⟨text, last⟩ := last
      obtain ⟨datum, _, found⟩ := present name text last
      simp only [Bindings.mem_names_of_find? found, true_iff]
      exact .inr ⟨text, last⟩
    · rw [Bindings.mem_names_iff, free name (not_exists.mp last), ← Bindings.mem_names_iff]
      simp only [last, or_false]
  · exact .inr ⟨name, text, failure, (find?_read read).mp given, failed, ended⟩

/-- Overrides are built exactly if every last text can be read. -/
theorem exists_build_iff (read : Assignments.read items = .ok assignments) :
    (∃ overrides, build catalogue assignments base = .ok overrides) ↔
      ∀ name text, LastGives items name text → ∃ datum, Reads catalogue name text datum := by
  rcases build_cases catalogue base read with
    ⟨overrides, built, overlays⟩ | ⟨name, text, failure, last, failed, ended⟩
  · simp only [built, Except.ok.injEq, exists_eq', true_iff]
    intro name text last
    obtain ⟨datum, stands, _⟩ := overlays.assigned name text last
    exact ⟨datum, stands⟩
  · simp only [ended, reduceCtorEq, exists_false, false_iff, not_forall]
    refine ⟨name, text, last, ?_⟩
    rintro ⟨datum, stands⟩
    cases failed.symm.trans (datum_eq_ok_iff.mpr stands)

/-- What is built lays the items over the base. -/
theorem overlays_of_build (read : Assignments.read items = .ok assignments)
    (built : build catalogue assignments base = .ok overrides) :
    Overlays catalogue items base overrides := by
  rcases build_cases catalogue base read with
    ⟨overrides', built', overlays⟩ | ⟨name, text, failure, last, failed, ended⟩
  · cases built.symm.trans built'
    exact overlays
  · cases built.symm.trans ended

/-- What stands in the way is a last text for a declared name. -/
theorem exists_last_of_build_error {failure : Failure}
    (read : Assignments.read items = .ok assignments)
    (failed : build catalogue assignments base = .error failure) :
    ∃ name text entry, LastGives items name text ∧ catalogue.entryOf? name = some entry ∧
      Value.readText name text entry.kind = .error failure := by
  rcases build_cases catalogue base read with
    ⟨overrides, built, _⟩ | ⟨name, text, failure', last, unread, ended⟩
  · cases failed.symm.trans built
  · cases failed.symm.trans ended
    obtain ⟨entry, described, refused⟩ := datum_eq_error_iff.mp unread
    exact ⟨name, text, entry, last, described, refused⟩

/-- Building fails exactly if the last text of a declared name is no value of its kind. -/
theorem exists_build_error_iff (read : Assignments.read items = .ok assignments) :
    (∃ failure, build catalogue assignments base = .error failure) ↔
      ∃ name text entry, LastGives items name text ∧ catalogue.entryOf? name = some entry ∧
        ¬∃ value, Value.readText name text entry.kind = .ok value := by
  constructor
  · rintro ⟨failure, failed⟩
    obtain ⟨name, text, entry, last, described, refused⟩ := exists_last_of_build_error read failed
    refine ⟨name, text, entry, last, described, ?_⟩
    rintro ⟨value, stands⟩
    cases refused.symm.trans stands
  · rintro ⟨name, text, entry, last, described, unread⟩
    cases built : build catalogue assignments base with
    | error failure => exact ⟨failure, rfl⟩
    | ok overrides =>
        obtain ⟨_, reads, _⟩ := (overlays_of_build read built).assigned name text last
        cases reads with
        | declared described' stands =>
            cases described.symm.trans described'
            exact (unread ⟨_, stands⟩).elim
        | undeclared absent => cases absent.symm.trans described

/-- Nothing that is replaced matters: neither an item that a later one replaces nor an override that
an item replaces. -/
theorem exists_build_of_sameLast {assignments' : Assignments}
    (read : Assignments.read items = .ok assignments)
    (read' : Assignments.read items' = .ok assignments') (same : SameLast items items')
    (agree : AgreeApart items base base')
    (built : build catalogue assignments base = .ok overrides) :
    ∃ overrides', build catalogue assignments' base' = .ok overrides' ∧
      ∀ name, overrides'.find? name = overrides.find? name := by
  have overlays := overlays_of_build read built
  have readable : ∀ name text, LastGives items' name text →
      ∃ datum, Reads catalogue name text datum := by
    intro name text last
    exact (exists_build_iff read).mp ⟨overrides, built⟩ name text ((same name text).mp last)
  obtain ⟨overrides', built'⟩ : ∃ overrides', build catalogue assignments' base' = .ok overrides' :=
    (exists_build_iff read').mpr readable
  have overlays' := overlays_of_build read' built'
  refine ⟨overrides', built', fun name => ?_⟩
  by_cases last : ∃ text, LastGives items name text
  · obtain ⟨text, last⟩ := last
    obtain ⟨first, reads, found⟩ := overlays.assigned name text last
    obtain ⟨second, reads', found'⟩ := overlays'.assigned name text ((same name text).mpr last)
    rw [found, found', reads.unique reads']
  · have free := not_exists.mp last
    have free' : ∀ text, ¬LastGives items' name text :=
      fun text last => free text ((same name text).mp last)
    rw [overlays.kept name free, overlays'.kept name free', agree name free]

/-- **Assignments over other overrides.** A row of items is refused exactly if an item of it is
idle, and then for the first one. Otherwise the overrides are those that the items come to, unless
the last text for a declared name is no value of its kind; such a text is the failure. Only the last
items for the names and the overrides of the other names matter. -/
theorem build_overlays (catalogue : Catalogue) (items : List String) (base : Bindings Datum) :
    ((∃ fault, Assignments.read items = .error fault) ↔ ∃ item ∈ items, IsIdle item) ∧
    (∀ fault, Assignments.read items = .error fault →
      ∃ before item after, items = before ++ item :: after ∧ fault = ⟨item⟩ ∧ IsIdle item ∧
        ∀ earlier ∈ before, ¬IsIdle earlier) ∧
    ∀ assignments, Assignments.read items = .ok assignments →
      (∀ overrides, build catalogue assignments base = .ok overrides →
        Overlays catalogue items base overrides) ∧
      ((∃ failure, build catalogue assignments base = .error failure) ↔
        ∃ name text entry, LastGives items name text ∧ catalogue.entryOf? name = some entry ∧
          ¬∃ value, Value.readText name text entry.kind = .ok value) ∧
      (∀ failure, build catalogue assignments base = .error failure →
        ∃ name text entry found, LastGives items name text ∧
          catalogue.entryOf? name = some entry ∧
          failure = .mismatch name entry.kind found (.text text)) ∧
      ∀ items' assignments' base' overrides, Assignments.read items' = .ok assignments' →
        SameLast items items' → AgreeApart items base base' →
        build catalogue assignments base = .ok overrides →
        ∃ overrides', build catalogue assignments' base' = .ok overrides' ∧
          ∀ name, overrides'.find? name = overrides.find? name := by
  refine ⟨?_, fun fault => read_eq_error_iff.mp, ?_⟩
  · constructor
    · rintro ⟨fault, failed⟩
      obtain ⟨before, item, after, rfl, _, idle, _⟩ := read_eq_error_iff.mp failed
      exact ⟨item, List.mem_append_right before List.mem_cons_self, idle⟩
    · rintro ⟨item, member, idle⟩
      cases read : Assignments.read items with
      | error fault => exact ⟨fault, rfl⟩
      | ok assignments =>
          obtain ⟨given, ran, _⟩ := Except.map_eq_ok.mp read
          obtain ⟨index, listed⟩ := List.mem_iff_getElem?.mp member
          obtain ⟨⟨name, text⟩, _, gives⟩ := Except.getElem?_of_mapM ran listed
          exact (exists_gives_iff.mp ⟨name, text, readItem_eq_ok_iff.mp gives⟩ idle).elim
  · intro assignments read
    refine ⟨fun overrides => overlays_of_build read, exists_build_error_iff read, ?_, ?_⟩
    · intro failure failed
      obtain ⟨name, text, entry, last, described, refused⟩ :=
        exists_last_of_build_error read failed
      obtain ⟨found, shown⟩ := mismatch_of_readText refused
      exact ⟨name, text, entry, found, last, described, shown⟩
    · intro items' assignments' base' overrides read' same agree built
      exact exists_build_of_sameLast read read' same agree built

/-- A number of columns. -/
def columnsCatalogue : Catalogue := [⟨"columns", .number, none, none, 0⟩]

/-- An item that no number is in, and the one that replaces it. -/
def columnsItems : List String := ["columns=many", " columns =7", "extra=a=b"]

/-- A title, and an override that an item replaces. -/
def titleOverrides : Bindings Datum :=
  (Bindings.empty.put "title" (.text "Report")).put "columns" (.list [])

/-- What the items come to: the replaced item and the replaced override do not matter. -/
def columnsOverrides : Bindings Datum :=
  (titleOverrides.put "columns" (.typed (.number (.integer 7)))).put "extra" (.text "a=b")

/-- Neither what is no number nor the list stands in the way of the number. -/
theorem overlays_columnsItems :
    ∃ assignments, Assignments.read columnsItems = .ok assignments ∧
      build columnsCatalogue assignments titleOverrides = .ok columnsOverrides ∧
      Overlays columnsCatalogue columnsItems titleOverrides columnsOverrides := by
  have read : Assignments.read columnsItems =
      .ok ((Bindings.empty.put "columns" "7").put "extra" "a=b") := by rfl
  have built : build columnsCatalogue ((Bindings.empty.put "columns" "7").put "extra" "a=b")
      titleOverrides = .ok columnsOverrides := by rfl
  obtain ⟨_, _, assigned⟩ := build_overlays columnsCatalogue columnsItems titleOverrides
  exact ⟨_, read, built, (assigned _ read).1 _ built⟩

end Assignments

end EditableTemplate
