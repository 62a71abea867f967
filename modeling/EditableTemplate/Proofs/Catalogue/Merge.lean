import EditableTemplate.Proofs.Catalogue.Likeness

/-!
# Merging the mentions of a variable

A collected catalogue has one entry for each variable that is introduced, in the order of the first
placeholders that do so. An entry has the offset of that placeholder, the first label and the last
default that the variable is given, a literal retagged to its kind (`Entry.SumsUp`). Nothing else in
a document reaches the catalogue: documents with the same declarations and editable references, in
the same order, have catalogues that differ in offsets only (`Catalogue.collect_permissive_merges`).
-/

namespace EditableTemplate

/-- An entry sums up what the mentions of its variable say. -/
structure Entry.SumsUp (document : Document) (entry : Entry) : Prop where
  offset : (document.mentions.find? fun mention => mention.name = entry.name).map Mention.offset =
    some entry.offset
  label : entry.label = (Mention.given Mention.label document.mentions entry.name).head?
  kind : document.FinalKind entry.name entry.kind
  default : (document.default? entry.name).map (Default.retag? entry.kind) =
    entry.default.map some

/-- The variables that a document introduces, in the order of the first mentions. -/
def Document.introduced (document : Document) : List String :=
  (document.mentions.map Mention.name).eraseDups

namespace Draft

variable {policy : MergePolicy} {mentions : List Mention} {drafts : Bindings Draft}

/-- The drafts are in the order of the first mentions. -/
theorem names_gather (gathered : gather policy mentions = .ok drafts) :
    drafts.names = (mentions.map Mention.name).eraseDups := by
  induction mentions using List.reverseRecOn generalizing drafts with
  | nil =>
      obtain rfl := Except.ok.inj gathered
      rfl
  | append_singleton mentions mention ih =>
      rw [gather_concat] at gathered
      obtain ⟨before, earlier, added⟩ := Except.bind_eq_ok.mp gathered
      have put : ∃ draft, drafts = before.put mention.name draft := by
        rcases add_eq_ok added with ⟨_, put⟩ | ⟨_, _, _, put⟩
        · exact ⟨_, put⟩
        · exact ⟨_, put⟩
      obtain ⟨draft, rfl⟩ := put
      rw [Bindings.names_put, ih earlier, List.map_append, List.eraseDups_append]
      simp only [List.mem_eraseDups, List.map_cons, List.map_nil, List.removeAll]
      by_cases member : mention.name ∈ mentions.map Mention.name
      · rw [if_pos member, List.filter_cons_of_neg (by simpa using member)]
        simp
      · rw [if_neg member, List.filter_cons_of_pos (by simpa using member)]
        rfl

/-- The entry that is made of the drafts sums up the document. -/
theorem HasEntry.sumsUp {document : Document} (gathered : Gathered document drafts) {name : String}
    {entry : Entry} (holds : HasEntry drafts name entry) : entry.SumsUp document := by
  have named := holds.name_eq
  have final := gathered.finalKind_of_hasEntry holds
  have drafted : ∃ draft, drafts.find? name = some draft ∧ entry.offset = draft.offset ∧
      entry.label = draft.label ∧
      draft.default.map (Default.retag? entry.kind) = entry.default.map some := by
    cases holds with
    | bare drafted default => exact ⟨_, drafted, rfl, rfl, by rw [default]; rfl⟩
    | literal drafted default fits =>
        have retagged := Value.check_eq_ok_iff.mp fits
        refine ⟨_, drafted, rfl, rfl, ?_⟩
        rw [default, Option.map_some, Default.retag?, retagged]
        rfl
    | reference drafted default _ _ => exact ⟨_, drafted, rfl, rfl, by rw [default]; rfl⟩
  obtain ⟨draft, found, offset, label, default⟩ := drafted
  subst named
  rw [gathered.default_eq found] at default
  rw [gathered] at found
  obtain ⟨first, earliest, rfl⟩ := Option.map_eq_some_iff.mp found
  refine ⟨?_, label, final, default⟩
  rw [earliest, offset]
  rfl

end Draft

namespace Entry.SumsUp

variable {first second : Document} {entry other : Entry}

/-- Entries for one variable in documents that are alike are of the same kind. -/
theorem kind_eq (sums : entry.SumsUp first) (sums' : other.SumsUp second)
    (alike : first.Alike second) (agree : ¬second.KindsDiffer) (named : entry.name = other.name) :
    entry.kind = other.kind := by
  have final := alike.finalKind sums.kind
  rw [named] at final
  exact final.unique agree sums'.kind

/-- If the kinds are the same, the defaults mean the same. -/
theorem meaning_eq (sums : entry.SumsUp first) (sums' : other.SumsUp second)
    (alike : first.Alike second) (named : entry.name = other.name)
    (kinds : entry.kind = other.kind) :
    entry.default.map Default.meaning = other.default.map Default.meaning := by
  have default := sums.default
  have default' := sums'.default
  rw [named, kinds] at default
  cases given : first.default? other.name with
  | none =>
      rw [given] at default
      rw [alike.default_eq_none given] at default'
      rw [Option.map_eq_none_iff.mp default.symm, Option.map_eq_none_iff.mp default'.symm]
  | some chosen =>
      obtain ⟨chosen', given', same⟩ := alike.exists_default given
      rw [given, Option.map_some] at default
      rw [given', Option.map_some] at default'
      obtain ⟨result, found, retagged⟩ := Option.map_eq_some_iff.mp default.symm
      obtain ⟨result', found', retagged'⟩ := Option.map_eq_some_iff.mp default'.symm
      have means := Default.map_meaning_retag? same other.kind
      rw [← retagged, ← retagged'] at means
      rw [found, found', Option.map_some, Option.map_some]
      exact means.symm

end Entry.SumsUp

/-! ## What does not reach the catalogue -/

/-- The mention without its place. -/
def Mention.unplaced (mention : Mention) : Mention :=
  { mention with offset := 0 }

/-- The entry without its place. -/
def Entry.unplaced (entry : Entry) : Entry :=
  { entry with offset := 0 }

/-- What mentions give does not depend on where they are. -/
theorem Mention.given_map_unplaced {α : Type} (field : Mention → Option α)
    (free : ∀ mention, field mention.unplaced = field mention) (mentions : List Mention)
    (name : String) :
    given field (mentions.map unplaced) name = given field mentions name := by
  rw [given, given, List.filterMap_map]
  apply List.filterMap_congr
  intro mention _
  rw [Function.comp_apply, free]
  rfl

/-- What a node declares or describes. -/
def Node.description? : Node → Option Expression
  | .text _ _ => none
  | .placeholder (.reference _) _ _ => none
  | .placeholder expression _ _ => some expression

namespace Document

variable {document other : Document}

/-- The declarations and the editable references of a document, in order. -/
def descriptions (document : Document) : List Expression :=
  document.nodes.filterMap Node.description?

/-- The mentions of a document are made of its declarations and editable references. -/
theorem map_unplaced_mentions (document : Document) :
    document.mentions.map Mention.unplaced =
      document.descriptions.filterMap fun expression => Mention.ofPlaceholder (expression, 0) := by
  rw [mentions, placeholders, descriptions, List.filterMap_filterMap, List.map_filterMap,
    List.filterMap_filterMap]
  apply List.filterMap_congr
  intro node _
  cases node with
  | text content offset => rfl
  | placeholder expression offset stop => cases expression <;> rfl

section

variable (same : other.descriptions = document.descriptions)

include same

/-- Documents with the same descriptions have the same mentions, places aside. -/
theorem unplaced_mentions_eq :
    other.mentions.map Mention.unplaced = document.mentions.map Mention.unplaced := by
  rw [map_unplaced_mentions, map_unplaced_mentions, same]

/-- Documents with the same descriptions give a variable the same, except for places. -/
theorem given_eq {α : Type} (field : Mention → Option α)
    (free : ∀ mention, field mention.unplaced = field mention) (name : String) :
    Mention.given field other.mentions name = Mention.given field document.mentions name := by
  rw [← Mention.given_map_unplaced field free, unplaced_mentions_eq same,
    Mention.given_map_unplaced field free]

/-- Documents with the same descriptions mention the same names in the same order. -/
theorem names_mentions_eq :
    other.mentions.map Mention.name = document.mentions.map Mention.name := by
  have names := congrArg (List.map Mention.name) (unplaced_mentions_eq same)
  rw [List.map_map, List.map_map] at names
  exact names

theorem default?_eq (name : String) : other.default? name = document.default? name := by
  have defaults := given_eq same Mention.default (fun _ => rfl) name
  rw [default?, Mention.default?, defaults]
  rfl

/-- Documents with the same descriptions are alike. -/
theorem alike_of_descriptions : other.Alike document where
  introduces := by
    intro name
    have named := names_mentions_eq same
    rw [Introduces, Introduces, ← List.mem_map, ← List.mem_map, named]
  kinds := by
    intro name kind
    have kinds := given_eq same Mention.kind (fun _ => rfl) name
    rw [Document.kinds, Mention.kinds, kinds]
    rfl
  defaults := fun name => congrArg _ (default?_eq same name)

end

end Document

namespace Catalogue

variable {document other : Document} {catalogue catalogue' : Catalogue} {policy : MergePolicy}

/-- The names of a catalogue are those mentioned, in the order of their first mention. -/
theorem names_of_collect (collected : collect policy document = .ok catalogue) :
    catalogue.map Entry.name = (document.mentions.map Mention.name).eraseDups := by
  obtain ⟨drafts, gathered, _, collects⟩ := collects_of_collect collected
  rw [collects.names, Draft.names_gather gathered]

/-- Every entry of a catalogue sums up what the document says of its variable. -/
theorem sumsUp_of_collect (collected : collect policy document = .ok catalogue) {entry : Entry}
    (member : entry ∈ catalogue) : entry.SumsUp document := by
  obtain ⟨drafts, ran, _, collects⟩ := collects_of_collect collected
  have gathered : Draft.Gathered document drafts := (Draft.find?_of_gather ran).1
  have described := entryOf?_name_of_mem collects.sound.distinct member
  exact ((collects.entries entry.name entry).mp described).sumsUp gathered

/-- Rows of entries with the same names are the same in all that the names decide. -/
theorem map_eq_map_of_names {β : Type} {f : Entry → β}
    (names : catalogue.map Entry.name = catalogue'.map Entry.name)
    (same : ∀ entry ∈ catalogue, ∀ other ∈ catalogue', entry.name = other.name →
      f entry = f other) :
    catalogue.map f = catalogue'.map f := by
  induction catalogue generalizing catalogue' with
  | nil =>
      obtain rfl := List.map_eq_nil_iff.mp names.symm
      rfl
  | cons entry rest ih =>
      obtain ⟨other, rest', rfl, named, others⟩ := List.map_eq_cons_iff.mp names.symm
      have first := same entry List.mem_cons_self other List.mem_cons_self named.symm
      have tail := ih others.symm fun entry member other member' =>
        same entry (List.mem_cons_of_mem _ member) other (List.mem_cons_of_mem _ member')
      rw [List.map_cons, List.map_cons, first, tail]

/-- Documents with the same descriptions have the same catalogue, except for offsets. -/
theorem unplaced_eq_of_descriptions (same : other.descriptions = document.descriptions)
    (collected : collect .permissive document = .ok catalogue)
    (collected' : collect .permissive other = .ok catalogue') :
    catalogue'.map Entry.unplaced = catalogue.map Entry.unplaced := by
  have alike := Document.alike_of_descriptions same
  have agree := (exists_collect_permissive_iff.mp ⟨catalogue, collected⟩).1
  apply map_eq_map_of_names
  · rw [names_of_collect collected, names_of_collect collected', Document.names_mentions_eq same]
  · intro entry member entry' member' named
    have sums := sumsUp_of_collect collected' member
    have sums' := sumsUp_of_collect collected member'
    have kinds := sums.kind_eq sums' alike agree named
    have labels : entry.label = entry'.label := by
      rw [sums.label, sums'.label, named, Document.given_eq same Mention.label fun _ => rfl]
    have defaults : entry.default = entry'.default := by
      have retagged := sums.default
      rw [named, kinds, Document.default?_eq same, sums'.default] at retagged
      exact (Option.map_injective (Option.some_injective _) retagged).symm
    rw [Entry.unplaced, Entry.unplaced, named, kinds, labels, defaults]

/-- **How mentions are merged.** A catalogue collected under the permissive policy has one entry for
each variable that is introduced, in the order of the first mentions. An entry has the offset of the
first mention, the first label and the last default given, retagged to its kind. Literal text and
bare references contribute nothing: a document with the same declarations and editable references
has a catalogue exactly if its bare references are to the variables introduced, and then the names,
kinds, labels and defaults are the same. -/
theorem collect_permissive_merges
    (collected : collect .permissive document = .ok catalogue) :
    (catalogue.map Entry.name).Nodup ∧
    catalogue.map Entry.name = (document.mentions.map Mention.name).eraseDups ∧
    (∀ entry ∈ catalogue,
      (document.mentions.find? fun mention => mention.name = entry.name).map Mention.offset =
        some entry.offset ∧
      entry.label = (Mention.given Mention.label document.mentions entry.name).head? ∧
      (Mention.given Mention.default document.mentions entry.name).getLast?.map
        (Default.retag? entry.kind) = entry.default.map some) ∧
    ∀ other : Document, other.descriptions = document.descriptions →
      ((∃ catalogue', collect .permissive other = .ok catalogue') ↔
        ∀ reference ∈ other.references, document.Introduces reference.1) ∧
      ∀ catalogue', collect .permissive other = .ok catalogue' →
        catalogue'.map Entry.unplaced = catalogue.map Entry.unplaced := by
  refine ⟨(sound_of_collect collected).distinct, names_of_collect collected, ?_, ?_⟩
  · intro entry member
    have sums := sumsUp_of_collect collected member
    exact ⟨sums.offset, sums.label, sums.default⟩
  · intro other same
    have alike := Document.alike_of_descriptions same
    refine ⟨⟨?_, ?_⟩, fun catalogue' => unplaced_eq_of_descriptions same collected⟩
    · rintro ⟨catalogue', collected'⟩ reference listed
      exact (alike.introduces _).mp (introduces_of_collect collected' listed)
    · intro known
      apply alike.symm.exists_collect collected
      intro reference listed
      exact (alike.introduces _).mpr (known reference listed)

/-- A document that describes a tone twice and declares an accent twice. -/
def toneDocument : Document :=
  ⟨"", [.text "Dear " 0,
    .placeholder (.editable "tone" none (some "") (some (.reference "accent"))) 5 20,
    .placeholder (.declaration "accent" .color (some (.literal (.string "blue")))) 20 40,
    .placeholder (.reference "tone") 40 50,
    .placeholder (.editable "tone" none (some "Tone") (some (.reference "base"))) 50 70,
    .placeholder (.editable "base" none none (some (.literal (.string "calm")))) 70 90,
    .placeholder (.declaration "accent" .color (some (.literal (.string " red ")))) 90 110]⟩

/-- Its catalogue: the empty label of the tone is the first one given. -/
def toneCatalogue : Catalogue :=
  [⟨"tone", .string, some "", some (.reference "base"), 5⟩,
    ⟨"accent", .color, none, some (.literal (.color "red")), 20⟩,
    ⟨"base", .string, none, some (.literal (.string "calm")), 70⟩]

/-- The same descriptions with other bare references and without the text. -/
def terseDocument : Document :=
  ⟨"", .placeholder (.reference "base") 0 10 ::
    (toneDocument.nodes.filter fun node => (Node.description? node).isSome)⟩

theorem merges_toneDocument :
    collect .permissive toneDocument = .ok toneCatalogue ∧
      toneCatalogue.map Entry.name = (toneDocument.mentions.map Mention.name).eraseDups ∧
      some "" = (Mention.given Mention.label toneDocument.mentions "tone").head? ∧
      ∃ catalogue', collect .permissive terseDocument = .ok catalogue' ∧
        catalogue'.map Entry.unplaced = toneCatalogue.map Entry.unplaced := by
  have collected : collect .permissive toneDocument = .ok toneCatalogue := by with_unfolding_all rfl
  obtain ⟨_, names, entries, others⟩ := collect_permissive_merges collected
  obtain ⟨_, label, _⟩ :=
    entries ⟨"tone", .string, some "", some (.reference "base"), 5⟩ List.mem_cons_self
  obtain ⟨exactly, same⟩ := others terseDocument rfl
  have known : ∀ reference ∈ terseDocument.references,
      toneDocument.Introduces reference.1 := by
    intro reference listed
    have only : terseDocument.references = [("base", 0)] := rfl
    rw [only, List.mem_singleton] at listed
    rw [listed]
    exact ⟨⟨"base", none, none, some (.literal (.string "calm")), 70⟩, by decide, rfl⟩
  obtain ⟨catalogue', collected'⟩ := exactly.mpr known
  exact ⟨collected, names, label, catalogue', collected', same catalogue' collected'⟩

end Catalogue

end EditableTemplate
