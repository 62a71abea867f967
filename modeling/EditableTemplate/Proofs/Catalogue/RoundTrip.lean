import EditableTemplate.Proofs.Catalogue.Agreement
import EditableTemplate.Proofs.Catalogue.Written

/-!
# Catalogues come back

A document restates a catalogue if its placeholders say what the entries say, each of them once and
in their order (`Document.Restates`). Nothing goes wrong when such a document is collected: no
variable is given anything twice, references go where they went in the catalogue, and a default
comes back from what a template gives of it, a color from the string (`Entry.Settled`). What is
written of a collected catalogue restates it, so under either policy it has the same catalogue,
except for offsets (`Catalogue.collect_parse_written`).
-/

namespace EditableTemplate

/-- A default that belongs to a kind comes back from what a template gives of it. -/
theorem Default.Spellable.retag?_plain {default : Default} {kind : Kind}
    (spellable : default.Spellable)
    (belongs : ∀ value, default = .literal value → value.kind = kind) :
    default.plain.retag? kind = some default := by
  cases spellable with
  | reference isName => rfl
  | literal spellable =>
      obtain rfl := belongs _ rfl
      cases spellable with
      | string text => rfl
      | number writable => rfl
      | boolean truth => rfl
      | color text valid =>
          have again : (Value.string text).retag? .color = some (.color text) := by
            rw [Value.retag?, valid]
            rfl
          exact congrArg (Option.map Default.literal) again

/-- A default is plainly a reference exactly where it is one. -/
theorem Default.plain_eq_reference_iff {default : Default} {name : String} :
    default.plain = .reference name ↔ default = .reference name := by
  cases default with
  | reference other => exact Iff.rfl
  | literal value => cases value <;> simp [plain]

/-- An entry whose default comes back from what a template gives of it. -/
def Entry.Settled (entry : Entry) : Prop :=
  ∀ default, entry.default = some default → default.plain.retag? entry.kind = some default

/-- A settled default comes back from its plain form under the kind of its entry. -/
theorem Entry.Settled.map_retag? {entry : Entry} (settled : entry.Settled) :
    (entry.default.map Default.plain).map (Default.retag? entry.kind) = entry.default.map some := by
  cases given : entry.default with
  | none => rfl
  | some default => exact congrArg some (settled default given)

/-- A row without repetitions is left as it is. -/
theorem eraseDups_of_nodup {names : List String} (distinct : names.Nodup) :
    names.eraseDups = names := by
  induction names with
  | nil => rfl
  | cons name rest ih =>
      obtain ⟨absent, others⟩ := List.nodup_cons.mp distinct
      have apart : rest.filter (fun other => !other == name) = rest := by
        apply List.filter_eq_self.mpr
        intro other member
        have differ : other ≠ name := fun same => absent (same ▸ member)
        simpa using differ
      rw [List.eraseDups_cons, apart, ih others]

/-- What the editable reference of an entry says. -/
def Entry.mention (entry : Entry) : Mention :=
  ⟨entry.name, some entry.kind, entry.label, entry.default.map Default.plain, 0⟩

/-- A document says what the entries of a catalogue say, each of them once and in their order. -/
structure Document.Restates (document : Document) (catalogue : Catalogue) : Prop where
  mentions : document.mentions.map Mention.unplaced = catalogue.map Entry.mention
  references : document.references = []

/-- Of entries with distinct names only one gives anything for its name. -/
theorem Mention.given_map_mention {α : Type} (field : Mention → Option α) {catalogue : Catalogue}
    (distinct : (catalogue.map Entry.name).Nodup) {entry : Entry} (member : entry ∈ catalogue) :
    given field (catalogue.map Entry.mention) entry.name = (field entry.mention).toList := by
  induction catalogue with
  | nil => cases member
  | cons first rest ih =>
      obtain ⟨absent, others⟩ := List.nodup_cons.mp distinct
      have split : given field ((first :: rest).map Entry.mention) entry.name =
          (if first.name = entry.name then field first.mention else none).toList ++
            given field (rest.map Entry.mention) entry.name := by
        rw [List.map_cons, given, given, List.filterMap_eq_flatMap_toList,
          List.filterMap_eq_flatMap_toList, List.flatMap_cons]
        rfl
      rcases List.mem_cons.mp member with rfl | later
      · have alone : given field (rest.map Entry.mention) entry.name = [] := by
          apply given_eq_nil
          apply List.find?_eq_none.mpr
          intro mention listed named
          obtain ⟨other, listed', rfl⟩ := List.mem_map.mp listed
          have same : other.name = entry.name := of_decide_eq_true named
          exact absent (same ▸ List.mem_map_of_mem listed')
        rw [split, if_pos rfl, alone, List.append_nil]
      · have apart : first.name ≠ entry.name :=
          fun same => absent (same ▸ List.mem_map_of_mem later)
        rw [split, if_neg apart, ih others later]
        rfl

namespace Document.Restates

variable {document : Document} {catalogue : Catalogue} (restates : document.Restates catalogue)

include restates

/-- The document mentions the variables of the catalogue, in its order. -/
theorem names_eq : document.mentions.map Mention.name = catalogue.map Entry.name := by
  have names := congrArg (List.map Mention.name) restates.mentions
  rw [List.map_map, List.map_map] at names
  exact names

/-- The document introduces the variables of the catalogue. -/
theorem introduces_iff {name : String} :
    document.Introduces name ↔ ∃ entry ∈ catalogue, entry.name = name := by
  rw [Introduces, ← List.mem_map, restates.names_eq, List.mem_map]

variable (distinct : (catalogue.map Entry.name).Nodup)

include distinct

/-- The document gives of a variable what its entry says, once. -/
theorem given_eq {α : Type} (field : Mention → Option α)
    (free : ∀ mention, field mention.unplaced = field mention) {entry : Entry}
    (member : entry ∈ catalogue) :
    Mention.given field document.mentions entry.name = (field entry.mention).toList := by
  rw [← Mention.given_map_unplaced field free, restates.mentions,
    Mention.given_map_mention field distinct member]

/-- No variable is given anything twice. -/
theorem given_unique {α : Type} {field : Mention → Option α}
    (free : ∀ mention, field mention.unplaced = field mention) {name : String} {first second : α}
    (left : first ∈ Mention.given field document.mentions name)
    (right : second ∈ Mention.given field document.mentions name) : first = second := by
  obtain ⟨mention, listed, named, _⟩ := Mention.mem_given_iff.mp left
  obtain ⟨entry, member, rfl⟩ := restates.introduces_iff.mp ⟨mention, listed, named⟩
  rw [restates.given_eq distinct field free member, Option.mem_toList] at left right
  exact Option.some.inj (left.symm.trans right)

/-- The document gives the kind of every entry. -/
theorem kind_mem {entry : Entry} (member : entry ∈ catalogue) :
    entry.kind ∈ document.kinds entry.name := by
  have one := restates.given_eq distinct Mention.kind (fun _ => rfl) member
  rw [kinds, Mention.kinds, one]
  exact List.mem_singleton_self _

/-- The last default of a variable is that of its entry, in plain form. -/
theorem default?_eq {entry : Entry} (member : entry ∈ catalogue) :
    document.default? entry.name = entry.default.map Default.plain := by
  have defaults := restates.given_eq distinct Mention.default (fun _ => rfl) member
  rw [default?, Mention.default?, defaults]
  exact Draft.getLast?_toList _

/-- The kinds of the document do not differ. -/
theorem not_kindsDiffer : ¬document.KindsDiffer := by
  rintro ⟨mention, listed, mention', listed', named, kind, other, gives, gives', differ⟩
  have left := Mention.mem_given_iff.mpr ⟨mention, listed, rfl, gives⟩
  have right := Mention.mem_given_iff.mpr ⟨mention', listed', named.symm, gives'⟩
  exact differ (restates.given_unique distinct (fun _ => rfl) left right)

theorem labelsAgree : document.LabelsAgree :=
  fun _ _ left _ right => restates.given_unique distinct (fun _ => rfl) left right

theorem defaultsAgree : document.DefaultsAgree :=
  fun _ _ left _ right => congrArg _ (restates.given_unique distinct (fun _ => rfl) left right)

/-- A variable comes to the kind of its entry. -/
theorem finalKind_iff {entry : Entry} (member : entry ∈ catalogue) {kind : Kind} :
    document.FinalKind entry.name kind ↔ kind = entry.kind := by
  have given : document.FinalKind entry.name entry.kind :=
    .given (restates.kind_mem distinct member)
  constructor
  · intro final
    exact final.unique (restates.not_kindsDiffer distinct) given
  · rintro rfl
    exact given

/-- A default of the document is that of an entry. -/
theorem exists_entry_of_default? {name : String} {default : Default}
    (given : document.default? name = some default) :
    ∃ entry ∈ catalogue, entry.name = name ∧
      ∃ own, entry.default = some own ∧ own.plain = default := by
  obtain ⟨mention, listed, named, _⟩ := Mention.mem_given_iff.mp (List.mem_of_getLast? given)
  obtain ⟨entry, member, rfl⟩ := restates.introduces_iff.mp ⟨mention, listed, named⟩
  rw [restates.default?_eq distinct member] at given
  exact ⟨entry, member, rfl, Option.map_eq_some_iff.mp given⟩

theorem exists_entry_of_refersTo {name target : String} (refers : document.RefersTo name target) :
    ∃ entry ∈ catalogue, entry.name = name ∧ entry.default = some (.reference target) := by
  obtain ⟨entry, member, named, own, given, plain⟩ :=
    restates.exists_entry_of_default? distinct refers
  rw [Default.plain_eq_reference_iff.mp plain] at given
  exact ⟨entry, member, named, given⟩

omit distinct

variable (sound : catalogue.Sound)

include sound

/-- No reference of the document is to an unknown variable. -/
theorem not_dangles : ¬document.Dangles := by
  rintro ⟨name, ⟨offset, listed⟩ | ⟨other, refers⟩, missing⟩
  · rw [restates.references] at listed
    cases listed
  · obtain ⟨entry, member, _, given⟩ := restates.exists_entry_of_refersTo sound.distinct refers
    obtain ⟨target, present, named, _⟩ := sound.reference entry member name given
    exact missing (restates.introduces_iff.mpr ⟨target, present, named⟩)

theorem not_circular : ¬document.Circular := by
  rintro ⟨name, circle⟩
  have refers : ∀ other target, document.RefersTo other target →
      catalogue.RefersTo other target := by
    intro other target refers
    obtain ⟨entry, member, rfl, given⟩ := restates.exists_entry_of_refersTo sound.distinct refers
    obtain ⟨found, present, named, _⟩ := sound.reference entry member target given
    exact ⟨⟨entry, Catalogue.entryOf?_name_of_mem sound.distinct member, given⟩,
      found, present, named⟩
  exact sound.acyclic name (Relation.TransGen.mono refers _ _ circle)

variable (settled : ∀ entry ∈ catalogue, entry.Settled)

include settled

theorem not_misfits : ¬document.Misfits := by
  rintro ⟨name, kind, final, ⟨value, default, unfit⟩ | ⟨target, other, refers, final', refused⟩⟩
  · obtain ⟨entry, member, rfl, own, given, plain⟩ :=
      restates.exists_entry_of_default? sound.distinct default
    obtain rfl := (restates.finalKind_iff sound.distinct member).mp final
    have back := settled entry member own given
    rw [plain, Default.retag?, unfit] at back
    cases back
  · obtain ⟨entry, member, rfl, given⟩ := restates.exists_entry_of_refersTo sound.distinct refers
    obtain ⟨found, present, rfl, accepts⟩ := sound.reference entry member _ given
    obtain rfl := (restates.finalKind_iff sound.distinct member).mp final
    obtain rfl := (restates.finalKind_iff sound.distinct present).mp final'
    cases refused.symm.trans accepts

/-- A document that restates a catalogue is collected under either policy. -/
theorem exists_collect (policy : MergePolicy) :
    ∃ catalogue', Catalogue.collect policy document = .ok catalogue' := by
  obtain ⟨catalogue', collected⟩ := Catalogue.exists_collect_permissive_iff.mpr
    ⟨restates.not_kindsDiffer sound.distinct, restates.not_dangles sound,
      restates.not_circular sound, restates.not_misfits sound settled⟩
  cases policy with
  | permissive => exact ⟨catalogue', collected⟩
  | strict =>
      exact ⟨catalogue', Catalogue.collect_strict_eq_ok.mpr ⟨collected,
        restates.labelsAgree sound.distinct, restates.defaultsAgree sound.distinct⟩⟩

/-- The document gives the catalogue again, places aside. -/
theorem unplaced_eq {policy : MergePolicy} {catalogue' : Catalogue}
    (collected : Catalogue.collect policy document = .ok catalogue') :
    catalogue'.map Entry.unplaced = catalogue.map Entry.unplaced := by
  apply Catalogue.map_eq_map_of_names
  · rw [Catalogue.names_of_collect collected, restates.names_eq]
    exact eraseDups_of_nodup sound.distinct
  · intro entry' member' entry member named
    have sums := Catalogue.sumsUp_of_collect collected member'
    have kinds : entry'.kind = entry.kind := by
      apply (restates.finalKind_iff sound.distinct member).mp
      rw [← named]
      exact sums.kind
    have labels : entry'.label = entry.label := by
      rw [sums.label, named, restates.given_eq sound.distinct Mention.label (fun _ => rfl) member]
      exact Option.head?_toList
    have defaults : entry'.default = entry.default := by
      have retagged := sums.default
      rw [named, kinds, restates.default?_eq sound.distinct member,
        (settled entry member).map_retag?] at retagged
      exact (Option.map_injective (Option.some_injective _) retagged).symm
    rw [Entry.unplaced, Entry.unplaced, named, kinds, labels, defaults]

end Document.Restates

namespace Catalogue

variable {source : String} {document : Document} {policy : MergePolicy} {catalogue : Catalogue}

theorem descriptions_nodes (source : String) (offset : Nat) (catalogue : Catalogue) :
    (Document.mk source (catalogue.nodes offset)).descriptions =
      catalogue.map Entry.expression := by
  induction catalogue generalizing offset with
  | nil => rfl
  | cons entry rest ih => exact congrArg (entry.expression :: ·) (ih _)

theorem references_nodes (source : String) (offset : Nat) (catalogue : Catalogue) :
    (Document.mk source (catalogue.nodes offset)).references = [] := by
  induction catalogue generalizing offset with
  | nil => rfl
  | cons entry rest ih => exact ih _

/-- What is written restates the catalogue. -/
theorem restates_nodes (source : String) (offset : Nat) (catalogue : Catalogue) :
    (Document.mk source (catalogue.nodes offset)).Restates catalogue where
  mentions := by
    have mentions : (fun expression => Mention.ofPlaceholder (expression, 0)) ∘
        Entry.expression = fun entry => some entry.mention := rfl
    rw [Document.map_unplaced_mentions, descriptions_nodes, List.filterMap_map, mentions,
      List.filterMap_eq_map']
  references := references_nodes source offset catalogue

/-- **Catalogues come back.** If a source has a catalogue under some policy, then what is written of
the catalogue is parsed, and under every policy it has a catalogue with the same names, kinds,
labels and defaults in the same order. -/
theorem collect_parse_written (parsed : Document.parse source = .ok document)
    (collected : collect policy document = .ok catalogue) :
    ∃ document', Document.parse catalogue.written = .ok document' ∧
      ∀ policy', ∃ catalogue', collect policy' document' = .ok catalogue' ∧
        catalogue'.map Entry.unplaced = catalogue.map Entry.unplaced := by
  have spellable : ∀ entry ∈ catalogue, entry.Spellable :=
    fun _ => spellable_of_collect parsed collected
  have sound := sound_of_collect collected
  have settled : ∀ entry ∈ catalogue, entry.Settled := by
    intro entry member default given
    apply ((spellable entry member).default default given).retag?_plain
    rintro value rfl
    exact sound.literal entry member value given
  refine ⟨_, parse_written spellable, ?_⟩
  intro policy'
  have restates := restates_nodes catalogue.written 0 catalogue
  obtain ⟨catalogue', collected'⟩ := restates.exists_collect sound settled policy'
  exact ⟨catalogue', collected', restates.unplaced_eq sound settled collected'⟩

/-- A source in which a tone takes the color of a later ink, which stands between blanks, and two
variables have no kinds of their own. -/
def variedSource : String :=
  "\x7b\x7b tone, friendlyName: \"\", defaultValue: $ink \x7d\x7d" ++
    "\x7b\x7b @ink: color = \" red \" \x7d\x7d, " ++
    "\x7b\x7b low, friendlyName: \"\\\x7b\", defaultValue: -0.0 \x7d\x7d"

/-- The document of that source. -/
def variedDocument : Document :=
  ⟨variedSource, [
    .placeholder (.editable "tone" none (some "") (some (.reference "ink"))) 0 48,
    .placeholder (.declaration "ink" .color (some (.literal (.string " red ")))) 48 75,
    .text ", " 75,
    .placeholder (.editable "low" none (some "\x7b")
      (some (.literal (.number (.real (.zero true)))))) 77 126]⟩

/-- Its catalogue. -/
def variedCatalogue : Catalogue :=
  [⟨"tone", .color, some "", some (.reference "ink"), 0⟩,
    ⟨"ink", .color, none, some (.literal (.color "red")), 48⟩,
    ⟨"low", .number, some "\x7b", some (.literal (.number (.real (.zero true)))), 77⟩]

/-- The catalogue as it is written. -/
def variedWritten : String :=
  "\x7b\x7b tone : color, friendlyName: \"\", defaultValue: $ink \x7d\x7d" ++
    "\x7b\x7b ink : color, defaultValue: \"red\" \x7d\x7d" ++
    "\x7b\x7b low : number, friendlyName: \"\\\x7b\", defaultValue: -0.0 \x7d\x7d"

theorem varied_comes_back :
    Document.parse variedSource = .ok variedDocument ∧
      collect .permissive variedDocument = .ok variedCatalogue ∧
      variedCatalogue.written = variedWritten ∧
      ∃ document', Document.parse variedWritten = .ok document' ∧
        ∀ policy', ∃ catalogue', collect policy' document' = .ok catalogue' ∧
          catalogue'.map Entry.unplaced = variedCatalogue.map Entry.unplaced := by
  have parsed : Document.parse variedSource = .ok variedDocument := by decide +kernel
  have collected : collect .permissive variedDocument = .ok variedCatalogue := by decide +kernel
  have written : variedCatalogue.written = variedWritten := by decide +kernel
  have back := collect_parse_written parsed collected
  rw [written] at back
  exact ⟨parsed, collected, written, back⟩

end Catalogue

end EditableTemplate
