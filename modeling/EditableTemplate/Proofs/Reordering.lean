import EditableTemplate.Proofs.Catalogue.Merge
import EditableTemplate.Proofs.Resolution.Likeness
import EditableTemplate.Rendering

/-!
# The order of placeholders

Under the strict policy it does not matter which mention of a variable comes first or last, because
all its labels are equal and all its defaults mean the same. So a document whose nodes are put in
another order has a catalogue if the document has one, and the two say the same
(`Document.Reordered.alike_catalogues`). Whatever the overrides are, both can be resolved or
neither, and every variable has the same text, even if its default is `1` in one catalogue and `1.0`
in the other (`Catalogue.collect_strict_reordered`).
-/

namespace EditableTemplate

/-- Two choices from values of one meaning mean the same, if both are made or neither is. -/
theorem map_eq_of_agree {α β : Type} {meaning : α → β} {values : List α} {first second : Option α}
    (agree : ∀ one ∈ values, ∀ other ∈ values, meaning one = meaning other)
    (member : ∀ value, first = some value → value ∈ values)
    (member' : ∀ value, second = some value → value ∈ values)
    (both : first = none ↔ second = none) : first.map meaning = second.map meaning := by
  cases first with
  | none => rw [both.mp rfl]
  | some one =>
      cases second with
      | none => cases both.mpr rfl
      | some other =>
          have same := agree one (member one rfl) other (member' other rfl)
          rw [Option.map_some, Option.map_some, same]

namespace Document

variable {first second : Document}

/-- The documents have the same nodes, in whatever order. -/
def Reordered (first second : Document) : Prop :=
  first.nodes.Perm second.nodes

namespace Reordered

theorem symm (reordered : first.Reordered second) : second.Reordered first :=
  List.Perm.symm reordered

variable (reordered : first.Reordered second)

include reordered

theorem perm_placeholders : first.placeholders.Perm second.placeholders :=
  List.Perm.filterMap _ reordered

/-- Documents with reordered nodes have the same mentions. -/
theorem perm_mentions : first.mentions.Perm second.mentions :=
  reordered.perm_placeholders.filterMap _

theorem perm_references : first.references.Perm second.references :=
  reordered.perm_placeholders.filterMap _

/-- What is given for a name is the same in another order. -/
theorem perm_given {α : Type} (field : Mention → Option α) (name : String) :
    (Mention.given field first.mentions name).Perm (Mention.given field second.mentions name) :=
  reordered.perm_mentions.filterMap _

/-- If the labels of one document agree, those of the other do. -/
theorem labelsAgree (agree : first.LabelsAgree) : second.LabelsAgree := by
  intro name one member other member'
  have same := reordered.perm_given Mention.label name
  exact agree name one (same.mem_iff.mpr member) other (same.mem_iff.mpr member')

theorem defaultsAgree (agree : first.DefaultsAgree) : second.DefaultsAgree := by
  intro name one member other member'
  have same := reordered.perm_given Mention.default name
  exact agree name one (same.mem_iff.mpr member) other (same.mem_iff.mpr member')

/-- If the defaults agree, the last one given means the same, whichever it is. -/
theorem alike (agree : first.DefaultsAgree) : first.Alike second where
  introduces := by
    intro name
    have same := reordered.perm_mentions
    constructor
    · rintro ⟨mention, listed, named⟩
      exact ⟨mention, same.mem_iff.mp listed, named⟩
    · rintro ⟨mention, listed, named⟩
      exact ⟨mention, same.mem_iff.mpr listed, named⟩
  kinds := fun name _ => (reordered.perm_given Mention.kind name).mem_iff
  defaults := by
    intro name
    have same := reordered.perm_given Mention.default name
    apply map_eq_of_agree (agree name)
    · exact fun _ last => List.mem_of_getLast? last
    · exact fun _ last => same.mem_iff.mpr (List.mem_of_getLast? last)
    · unfold default? Mention.default?
      rw [List.getLast?_eq_none_iff, List.getLast?_eq_none_iff, ← List.length_eq_zero_iff,
        ← List.length_eq_zero_iff, same.length_eq]

/-- If the labels agree, the first one given is the same, whichever it is. -/
theorem label_eq (agree : first.LabelsAgree) (name : String) :
    (Mention.given Mention.label first.mentions name).head? =
      (Mention.given Mention.label second.mentions name).head? := by
  have same := reordered.perm_given Mention.label name
  have chosen : (Mention.given Mention.label first.mentions name).head?.map id =
      (Mention.given Mention.label second.mentions name).head?.map id := by
    apply map_eq_of_agree (agree name)
    · exact fun _ => List.mem_of_mem_head?
    · exact fun _ leading => same.mem_iff.mpr (List.mem_of_mem_head? leading)
    · rw [List.head?_eq_none_iff, List.head?_eq_none_iff, ← List.length_eq_zero_iff,
        ← List.length_eq_zero_iff, same.length_eq]
  rw [Option.map_id] at chosen
  exact chosen

/-- If the strict policy collects one document, it collects the other. -/
theorem exists_collect {catalogue : Catalogue}
    (collected : Catalogue.collect .strict first = .ok catalogue) :
    ∃ catalogue', Catalogue.collect .strict second = .ok catalogue' := by
  obtain ⟨permitted, labels, defaults⟩ := Catalogue.collect_strict_eq_ok.mp collected
  have alike := reordered.alike defaults
  have known : ∀ reference ∈ second.references, second.Introduces reference.1 := by
    intro reference listed
    have earlier := reordered.perm_references.mem_iff.mpr listed
    exact (alike.introduces _).mp (Catalogue.introduces_of_collect permitted earlier)
  obtain ⟨catalogue', permitted'⟩ := alike.exists_collect permitted known
  exact ⟨catalogue', Catalogue.collect_strict_eq_ok.mpr
    ⟨permitted', reordered.labelsAgree labels, reordered.defaultsAgree defaults⟩⟩

section

variable {catalogue catalogue' : Catalogue}
  (collected : Catalogue.collect .strict first = .ok catalogue)
  (collected' : Catalogue.collect .strict second = .ok catalogue')

include collected collected'

/-- Entries of one name in the two catalogues mean the same. -/
theorem meaning_eq {entry other : Entry} (member : entry ∈ catalogue) (member' : other ∈ catalogue')
    (named : entry.name = other.name) : entry.meaning = other.meaning := by
  obtain ⟨_, labels, defaults⟩ := Catalogue.collect_strict_eq_ok.mp collected
  obtain ⟨permitted', _, _⟩ := Catalogue.collect_strict_eq_ok.mp collected'
  have alike := reordered.alike defaults
  have agree := (Catalogue.exists_collect_permissive_iff.mp ⟨_, permitted'⟩).1
  have sums := Catalogue.sumsUp_of_collect collected member
  have sums' := Catalogue.sumsUp_of_collect collected' member'
  have kinds := sums.kind_eq sums' alike agree named
  have meanings := sums.meaning_eq sums' alike named kinds
  have label : entry.label = other.label := by
    rw [sums.label, sums'.label, named, reordered.label_eq labels]
  rw [Entry.meaning, Entry.meaning, named, kinds, label, meanings]

/-- An entry of one catalogue has one of its meaning in the other. -/
theorem exists_meaning {entry : Entry} (member : entry ∈ catalogue) :
    ∃ other ∈ catalogue', other.name = entry.name ∧ other.meaning = entry.meaning := by
  have named : entry.name ∈ catalogue.map Entry.name := List.mem_map_of_mem member
  rw [Catalogue.names_of_collect collected, List.mem_eraseDups,
    (reordered.perm_mentions.map Mention.name).mem_iff, ← List.mem_eraseDups,
    ← Catalogue.names_of_collect collected', List.mem_map] at named
  obtain ⟨other, member', same⟩ := named
  exact ⟨other, member', same,
    (reordered.meaning_eq collected collected' member member' same.symm).symm⟩

/-- The entries of a name in the two catalogues mean the same. -/
theorem entryOf?_map_meaning {name : String} {entry : Entry}
    (described : catalogue.entryOf? name = some entry) :
    (catalogue'.entryOf? name).map Entry.meaning = some entry.meaning := by
  obtain ⟨other, member, named, same⟩ := reordered.exists_meaning collected collected'
    (Catalogue.mem_of_entryOf? described)
  have distinct := (Catalogue.sound_of_collect collected').distinct
  rw [← Catalogue.name_of_entryOf? described, ← named,
    Catalogue.entryOf?_name_of_mem distinct member, Option.map_some, same]

end

/-- The catalogues of reordered documents say the same. -/
theorem alike_catalogues {catalogue catalogue' : Catalogue}
    (collected : Catalogue.collect .strict first = .ok catalogue)
    (collected' : Catalogue.collect .strict second = .ok catalogue') :
    catalogue.Alike catalogue' := by
  intro name
  cases described : catalogue.entryOf? name with
  | some entry =>
      rw [reordered.entryOf?_map_meaning collected collected' described]
      rfl
  | none =>
      cases described' : catalogue'.entryOf? name with
      | none => rfl
      | some other =>
          have same := reordered.symm.entryOf?_map_meaning collected' collected described'
          rw [described] at same
          cases same

/-- The two catalogues have the same meanings. -/
theorem perm_meanings {catalogue catalogue' : Catalogue}
    (collected : Catalogue.collect .strict first = .ok catalogue)
    (collected' : Catalogue.collect .strict second = .ok catalogue') :
    (catalogue.map Entry.meaning).Perm (catalogue'.map Entry.meaning) := by
  have distinct : ∀ {entries : Catalogue}, (entries.map Entry.name).Nodup →
      (entries.map Entry.meaning).Nodup := by
    intro entries names
    apply List.Nodup.of_map Entry.Meaning.name
    rwa [List.map_map]
  apply (List.perm_ext_iff_of_nodup (distinct (Catalogue.sound_of_collect collected).distinct)
    (distinct (Catalogue.sound_of_collect collected').distinct)).mpr
  intro meaning
  rw [List.mem_map, List.mem_map]
  constructor
  · rintro ⟨entry, member, rfl⟩
    obtain ⟨other, member', _, same⟩ := reordered.exists_meaning collected collected' member
    exact ⟨other, member', same⟩
  · rintro ⟨entry, member, rfl⟩
    obtain ⟨other, member', _, same⟩ := reordered.symm.exists_meaning collected' collected member
    exact ⟨other, member', same⟩

end Reordered

end Document

namespace Catalogue

variable {first second : Document}

/-- **The order of placeholders does not matter under the strict policy.** If the nodes of a
document are put in another order, it has a catalogue exactly if it had one. The two catalogues have
the same names with the same kinds and labels and with defaults that mean the same. Under the same
overrides both can be resolved or neither, and then every variable has the same text in both, or
too many digits for one. -/
theorem collect_strict_reordered (reordered : first.nodes.Perm second.nodes) :
    ((∃ catalogue, collect .strict first = .ok catalogue) ↔
      ∃ catalogue', collect .strict second = .ok catalogue') ∧
    ∀ catalogue catalogue', collect .strict first = .ok catalogue →
      collect .strict second = .ok catalogue' →
      (catalogue.map Entry.meaning).Perm (catalogue'.map Entry.meaning) ∧
      ∀ (policy : UnknownPolicy) (overrides : OverrideSource),
        ((∃ values, Resolution.resolve policy catalogue overrides = .ok values) ↔
          ∃ values', Resolution.resolve policy catalogue' overrides = .ok values') ∧
        ∀ values values', Resolution.resolve policy catalogue overrides = .ok values →
          Resolution.resolve policy catalogue' overrides = .ok values' →
          ∀ entry ∈ catalogue, ∃ value value', values.find? entry.name = some value ∧
            values'.find? entry.name = some value' ∧ value.rendered = value'.rendered ∧
            value.writable = value'.writable := by
  have forward : first.Reordered second := reordered
  refine ⟨⟨?_, ?_⟩, ?_⟩
  · rintro ⟨catalogue, collected⟩
    exact forward.exists_collect collected
  · rintro ⟨catalogue', collected'⟩
    exact forward.symm.exists_collect collected'
  · intro catalogue catalogue' collected collected'
    have alike := forward.alike_catalogues collected collected'
    have sound := sound_of_collect collected
    have sound' := sound_of_collect collected'
    refine ⟨forward.perm_meanings collected collected', fun policy overrides => ⟨⟨?_, ?_⟩, ?_⟩⟩
    · rintro ⟨values, resolved⟩
      exact Resolution.exists_resolve_of_alike alike sound'.acyclic resolved
    · rintro ⟨values', resolved'⟩
      exact Resolution.exists_resolve_of_alike alike.symm sound.acyclic resolved'
    · intro values values' resolved resolved' entry member
      obtain ⟨value, value', found, found', same⟩ := Resolution.exists_meaning_of_alike alike
        resolved resolved' (entryOf?_name_of_mem sound.distinct member)
      exact ⟨value, value', found, found', Value.rendered_eq_of_meaning same.symm,
        Value.writable_eq_of_meaning same.symm⟩

/-- A document that gives a level twice, first as zero and then as minus zero. -/
def levelDocument : Document :=
  ⟨"", [.placeholder (.editable "level" none (some "Level")
      (some (.literal (.number (.real (.zero false)))))) 0 20,
    .placeholder (.reference "depth") 20 30,
    .placeholder (.declaration "depth" .number (some (.reference "level"))) 30 50,
    .placeholder (.declaration "level" .number
      (some (.literal (.number (.real (.zero true)))))) 50 70]⟩

/-- The same placeholders from the last to the first. -/
def reversedDocument : Document :=
  ⟨"", levelDocument.nodes.reverse⟩

/-- The catalogues of the two: the default of the level is minus zero in one and zero in the
other. -/
def levelCatalogue : Catalogue :=
  [⟨"level", .number, some "Level", some (.literal (.number (.real (.zero true)))), 0⟩,
    ⟨"depth", .number, none, some (.reference "level"), 30⟩]

def reversedCatalogue : Catalogue :=
  [⟨"level", .number, some "Level", some (.literal (.number (.real (.zero false)))), 50⟩,
    ⟨"depth", .number, none, some (.reference "level"), 30⟩]

/-- The values of the two variables, if the level is a zero of a sign. -/
def zeros (negative : Bool) : Bindings Value :=
  .ofList [("level", .number (.real (.zero negative))),
    ("depth", .number (.real (.zero negative)))]

theorem reordered_levelDocument :
    levelDocument.nodes.Perm reversedDocument.nodes ∧
      collect .strict levelDocument = .ok levelCatalogue ∧
      collect .strict reversedDocument = .ok reversedCatalogue ∧
      (levelCatalogue.map Entry.meaning).Perm (reversedCatalogue.map Entry.meaning) ∧
      Resolution.resolve .error levelCatalogue (.data .empty) = .ok (zeros true) ∧
      Resolution.resolve .error reversedCatalogue (.data .empty) = .ok (zeros false) ∧
      ∃ value value', (zeros true).find? "depth" = some value ∧
        (zeros false).find? "depth" = some value' ∧ value.rendered = value'.rendered := by
  have reordered : levelDocument.nodes.Perm reversedDocument.nodes := (List.reverse_perm _).symm
  have collected : collect .strict levelDocument = .ok levelCatalogue := by with_unfolding_all rfl
  have collected' : collect .strict reversedDocument = .ok reversedCatalogue := by
    with_unfolding_all rfl
  have resolved : Resolution.resolve .error levelCatalogue (.data .empty) = .ok (zeros true) := by
    with_unfolding_all rfl
  have resolved' : Resolution.resolve .error reversedCatalogue (.data .empty) =
      .ok (zeros false) := by with_unfolding_all rfl
  obtain ⟨_, both⟩ := collect_strict_reordered reordered
  obtain ⟨meanings, resolves⟩ := both _ _ collected collected'
  have texts := (resolves .error (.data .empty)).2 _ _ resolved resolved'
  obtain ⟨value, value', found, found', rendered, _⟩ :=
    texts ⟨"depth", .number, none, some (.reference "level"), 30⟩ (by simp [levelCatalogue])
  exact ⟨reordered, collected, collected', meanings, resolved, resolved',
    value, value', found, found', rendered⟩

end Catalogue

end EditableTemplate
