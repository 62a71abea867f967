import EditableTemplate.Proofs.Catalogue.Citation

/-!
# Inferred kinds

A variable whose kind no placeholder gives has the kind of its default, and if the default is a
reference, that of the variable referred to. So its kind comes from where a chain of such references
ends: at a variable that is given a kind, at a literal, or at a variable that nothing is said about,
which is a string. The chain may go forward and backward in the document, and it ends at one kind
only. `Catalogue.collect_infers_kinds` says that the entries have these kinds and that their
defaults fit them.
-/

namespace EditableTemplate

open Relation

namespace Document

variable {document : Document} {name : String} {kind : Kind}

/-- A variable without a kind of its own takes that of the variable that its default refers to. -/
def TakesKindFrom (document : Document) (name target : String) : Prop :=
  document.kinds name = [] ∧ document.RefersTo name target

/-- The kind of a variable is known without another one: it is given, or that of a literal default,
or nothing is said about it. -/
inductive Settles (document : Document) (name : String) : Kind → Prop
  | given {kind : Kind} (member : kind ∈ document.kinds name) : Settles document name kind
  | literal {value : Value} (free : document.kinds name = [])
      (default : document.default? name = some (.literal value)) :
      Settles document name value.kind
  | bare (introduced : document.Introduces name) (free : document.kinds name = [])
      (default : document.default? name = none) : Settles document name .string

/-- The kind is found at the end of a chain of references between variables without a kind. -/
def Infers (document : Document) (name : String) (kind : Kind) : Prop :=
  ∃ last, ReflTransGen document.TakesKindFrom name last ∧ document.Settles last kind

/-- A kind that is known without another variable is the final one. -/
theorem Settles.finalKind (settles : document.Settles name kind) :
    document.FinalKind name kind := by
  cases settles with
  | given member => exact .given member
  | literal free default => exact .literal free default
  | bare introduced free default => exact .bare introduced free default

/-- Inferring follows the references that the kind of a variable comes from. -/
theorem infers_iff_finalKind : document.Infers name kind ↔ document.FinalKind name kind := by
  constructor
  · intro ⟨last, chain, settles⟩
    -- along the chain, from its end
    induction chain using ReflTransGen.head_induction_on with
    | refl => exact settles.finalKind
    | head step _ known => exact .reference step.1 step.2 known
  · intro final
    induction final with
    | given member => exact ⟨_, .refl, .given member⟩
    | literal free default => exact ⟨_, .refl, .literal free default⟩
    | bare introduced free default => exact ⟨_, .refl, .bare introduced free default⟩
    | reference free refers _ ih =>
        obtain ⟨last, chain, settles⟩ := ih
        exact ⟨last, .head ⟨free, refers⟩ chain, settles⟩

/-- If no kinds differ, a variable that is given a kind takes it from nowhere else. -/
theorem Infers.eq_of_mem_kinds (agree : ¬document.KindsDiffer) {given : Kind}
    (infers : document.Infers name kind) (member : given ∈ document.kinds name) : kind = given :=
  (infers_iff_finalKind.mp infers).unique agree (.given member)

end Document

namespace Catalogue

variable {document : Document} {catalogue : Catalogue} {policy : MergePolicy} {entry : Entry}

/-- The kind of an entry is the one that the document infers. -/
theorem infers_of_collect (collected : collect policy document = .ok catalogue)
    (member : entry ∈ catalogue) : document.Infers entry.name entry.kind :=
  Document.infers_iff_finalKind.mpr (sumsUp_of_collect collected member).kind

/-- **Inferred kinds.** An entry of a collected catalogue has the kind that any placeholder gives
its variable. Else it has the kind of its last default, a literal or the variable referred to, and
without a default it is a string. In either case the kind is the one found by following the
references between variables without a kind to the end, and there is no other. A literal default has
the kind of the entry, and the kind of an entry accepts that of the entry its default refers to. -/
theorem collect_infers_kinds (collected : collect policy document = .ok catalogue) :
    ∀ entry ∈ catalogue,
      (∀ kind ∈ document.kinds entry.name, entry.kind = kind) ∧
      (document.kinds entry.name = [] →
        match document.default? entry.name with
        | none => entry.kind = .string
        | some (.literal value) => entry.kind = value.kind
        | some (.reference target) =>
          ∃ other ∈ catalogue, other.name = target ∧ entry.kind = other.kind) ∧
      (∀ kind, document.Infers entry.name kind ↔ kind = entry.kind) ∧
      (∀ value, entry.default = some (.literal value) → value.kind = entry.kind) ∧
      ∀ target, entry.default = some (.reference target) →
        ∃ other ∈ catalogue, other.name = target ∧ entry.kind.accepts other.kind = true := by
  intro entry member
  have agree := not_kindsDiffer_of_collect collected
  have infers := infers_of_collect collected member
  have final := Document.infers_iff_finalKind.mp infers
  have sound := sound_of_collect collected
  have only : ∀ kind, document.Infers entry.name kind ↔ kind = entry.kind := by
    intro kind
    refine ⟨fun found => ?_, fun same => same ▸ infers⟩
    exact (Document.infers_iff_finalKind.mp found).unique agree final
  refine ⟨fun kind given => infers.eq_of_mem_kinds agree given, fun free => ?_, only,
    sound.literal entry member, sound.reference entry member⟩
  cases default : document.default? entry.name with
  | none =>
      have introduced : document.Introduces entry.name :=
        (introduces_iff_of_collect collected).mpr ⟨entry, member, rfl⟩
      exact final.unique agree (.bare introduced free default)
  | some given =>
      cases given with
      | literal value => exact final.unique agree (.literal free default)
      | reference target =>
          obtain ⟨other, listed, named⟩ :=
            (introduces_iff_of_collect collected).mp (introduces_of_refersTo collected default)
          subst named
          have known := Document.infers_iff_finalKind.mp (infers_of_collect collected listed)
          exact ⟨other, listed, rfl, final.unique agree (.reference free default known)⟩

/-- A document in which the kind of a heading is that of an accent declared further down, reached by
way of a mood, while a motto refers back to a heading and a footer to what nothing is said about. -/
def chainDocument : Document :=
  ⟨"", [
    .placeholder (.editable "heading" none none (some (.reference "mood"))) 0 10,
    .placeholder (.editable "footer" none none (some (.reference "note"))) 10 20,
    .placeholder (.editable "mood" none none (some (.reference "accent"))) 20 30,
    .placeholder (.declaration "accent" .color (some (.literal (.string " red ")))) 30 40,
    .placeholder (.declaration "motto" .string (some (.reference "heading"))) 40 50,
    .placeholder (.editable "note" none none none) 50 60]⟩

/-- Its catalogue. -/
def chainCatalogue : Catalogue :=
  [⟨"heading", .color, none, some (.reference "mood"), 0⟩,
    ⟨"footer", .string, none, some (.reference "note"), 10⟩,
    ⟨"mood", .color, none, some (.reference "accent"), 20⟩,
    ⟨"accent", .color, none, some (.literal (.color "red")), 30⟩,
    ⟨"motto", .string, none, some (.reference "heading"), 40⟩,
    ⟨"note", .string, none, none, 50⟩]

theorem infers_chainDocument :
    collect .permissive chainDocument = .ok chainCatalogue ∧
      (∀ kind, chainDocument.Infers "heading" kind ↔ kind = .color) ∧
      (∀ kind, chainDocument.Infers "footer" kind ↔ kind = .string) ∧
      ∃ other ∈ chainCatalogue, other.name = "heading" ∧
        Kind.string.accepts other.kind = true := by
  have collected : collect .permissive chainDocument = .ok chainCatalogue := by
    with_unfolding_all rfl
  have inferred := collect_infers_kinds collected
  simp only [chainCatalogue, List.forall_mem_cons] at inferred
  obtain ⟨⟨_, _, heading, _⟩, ⟨_, _, footer, _⟩, _, _, ⟨_, _, _, _, motto⟩, _⟩ := inferred
  exact ⟨collected, heading, footer, motto "heading" rfl⟩

end Catalogue

end EditableTemplate
