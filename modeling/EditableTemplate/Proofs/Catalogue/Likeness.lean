import EditableTemplate.Proofs.Catalogue.Agreement

/-!
# Documents that say the same

Two documents are alike if they introduce the same variables, give each the same kinds, and leave
each with a default of the same meaning (`Document.Alike`). The offsets, the labels, the order of
the placeholders and the bare references do not matter to that. What can be wrong with a document
under the permissive policy, bare references apart, is wrong with those that are alike as well. So
if one has a catalogue, so has the other, provided that its bare references are to variables that it
introduces (`Document.Alike.exists_collect`).
-/

namespace EditableTemplate

/-- No kinds differ exactly if all kinds that a variable is given are equal. -/
theorem Mention.not_kindsDiffer_iff_agree {mentions : List Mention} :
    ¬KindsDiffer mentions ↔ Agree Mention.kind id mentions := by
  constructor
  · intro agree name first member second member'
    by_contra differ
    obtain ⟨mention, listed, rfl, gives⟩ := mem_given_iff.mp member
    obtain ⟨mention', listed', named, gives'⟩ := mem_given_iff.mp member'
    exact agree ⟨mention, listed, mention', listed', named.symm, first, second, gives, gives',
      differ⟩
  · rintro agree ⟨mention, listed, mention', listed', named, first, second, gives, gives', differ⟩
    apply differ
    apply agree mention.name first _ second _
    · exact mem_given_iff.mpr ⟨mention, listed, rfl, gives⟩
    · exact mem_given_iff.mpr ⟨mention', listed', named.symm, gives'⟩

namespace Document

open Relation

variable {first second : Document} {name target : String}

/-- The documents introduce the same variables, with the same kinds and with defaults of the same
meaning. -/
structure Alike (first second : Document) : Prop where
  introduces : ∀ name, first.Introduces name ↔ second.Introduces name
  kinds : ∀ name kind, kind ∈ first.kinds name ↔ kind ∈ second.kinds name
  defaults : ∀ name, (first.default? name).map Default.meaning =
    (second.default? name).map Default.meaning

namespace Alike

theorem symm (alike : first.Alike second) : second.Alike first where
  introduces := fun name => (alike.introduces name).symm
  kinds := fun name kind => (alike.kinds name kind).symm
  defaults := fun name => (alike.defaults name).symm

variable (alike : first.Alike second)

include alike

/-- A variable without a kind in one document has none in the other. -/
theorem kinds_eq_nil (free : first.kinds name = []) : second.kinds name = [] := by
  apply List.eq_nil_iff_forall_not_mem.mpr
  intro kind member
  have given := (alike.kinds name kind).mpr member
  rw [free] at given
  cases given

/-- A default in one document has a counterpart with its meaning in the other. -/
theorem exists_default {default : Default} (given : first.default? name = some default) :
    ∃ other, second.default? name = some other ∧ other.meaning = default.meaning :=
  exists_of_map_eq (alike.defaults name) given

/-- A variable without a default in one document has none in the other. -/
theorem default_eq_none (absent : first.default? name = none) : second.default? name = none :=
  eq_none_of_map_eq (alike.defaults name) absent

theorem exists_literal {value : Value} (given : first.default? name = some (.literal value)) :
    ∃ other, second.default? name = some (.literal other) ∧ other.meaning = value.meaning := by
  obtain ⟨default, found, same⟩ := alike.exists_default given
  obtain ⟨other, rfl, means⟩ := Default.exists_literal_of_meaning same
  exact ⟨other, found, means⟩

theorem refersTo (refers : first.RefersTo name target) : second.RefersTo name target := by
  obtain ⟨default, found, same⟩ := alike.exists_default refers
  rw [RefersTo, found, Default.meaning_eq_reference_iff.mp same]

/-- Documents that are alike have the same references between defaults. -/
theorem refersTo_iff : first.RefersTo name target ↔ second.RefersTo name target :=
  ⟨alike.refersTo, alike.symm.refersTo⟩

/-- Kinds differ in both documents or in neither. -/
theorem kindsDiffer_iff : first.KindsDiffer ↔ second.KindsDiffer := by
  apply not_iff_not.mp
  unfold KindsDiffer
  rw [Mention.not_kindsDiffer_iff_agree, Mention.not_kindsDiffer_iff_agree]
  constructor
  · intro agree name kind member other member'
    exact agree name kind ((alike.kinds name kind).mpr member) other
      ((alike.kinds name other).mpr member')
  · intro agree name kind member other member'
    exact agree name kind ((alike.kinds name kind).mp member) other
      ((alike.kinds name other).mp member')

/-- References go round in both documents or in neither. -/
theorem circular_iff : first.Circular ↔ second.Circular := by
  have same : first.RefersTo = second.RefersTo := by
    funext name target
    exact propext alike.refersTo_iff
  rw [Circular, Circular, same]

/-- A variable comes to the same kind in both documents. -/
theorem finalKind {kind : Kind} (final : first.FinalKind name kind) :
    second.FinalKind name kind := by
  induction final with
  | given member => exact .given ((alike.kinds _ _).mp member)
  | literal free default =>
      obtain ⟨other, found, means⟩ := alike.exists_literal default
      rw [← Value.kind_eq_of_meaning means]
      exact .literal (alike.kinds_eq_nil free) found
  | reference free refers _ ih =>
      exact .reference (alike.kinds_eq_nil free) (alike.refersTo refers) ih
  | bare introduced free default =>
      exact .bare ((alike.introduces _).mp introduced) (alike.kinds_eq_nil free)
        (alike.default_eq_none default)

/-- A default that does not fit in one document has a counterpart that does not in the other. -/
theorem misfits (unfit : first.Misfits) : second.Misfits := by
  obtain ⟨name, kind, final, cause⟩ := unfit
  refine ⟨name, kind, alike.finalKind final, ?_⟩
  rcases cause with ⟨value, default, refused⟩ | ⟨target, other, refers, known, refused⟩
  · obtain ⟨value', found, means⟩ := alike.exists_literal default
    have refused' := eq_none_of_map_eq (Value.map_meaning_retag? means.symm kind) refused
    exact .inl ⟨value', found, refused'⟩
  · exact .inr ⟨target, other, alike.refersTo refers, alike.finalKind known, refused⟩

/-- Nothing dangles in a document whose bare references are to variables that it introduces, if
nothing does in one like it. -/
theorem not_dangles (whole : ¬first.Dangles)
    (known : ∀ reference ∈ second.references, second.Introduces reference.1) :
    ¬second.Dangles := by
  rintro ⟨name, ⟨offset, listed⟩ | ⟨other, refers⟩, missing⟩
  · exact missing (known _ listed)
  · rw [← alike.introduces] at missing
    exact whole ⟨name, .inr ⟨other, alike.symm.refersTo refers⟩, missing⟩

end Alike

end Document

namespace Catalogue

variable {document : Document}

/-- The permissive policy collects exactly the documents without any of the four faults. -/
theorem exists_collect_permissive_iff :
    (∃ catalogue, collect .permissive document = .ok catalogue) ↔
      ¬document.KindsDiffer ∧ ¬document.Dangles ∧ ¬document.Circular ∧ ¬document.Misfits := by
  have outcome := outcome_collect document
  revert outcome
  generalize collect .permissive document = result
  intro outcome
  cases outcome with
  | kinds differ => simp [differ]
  | dangling _ dangles => simp [dangles]
  | circle _ _ circular => simp [circular]
  | misfit _ _ _ misfits => simp [misfits]
  | collected agree whole acyclic fits => simp [agree, whole, acyclic, fits]

end Catalogue

/-- A document like one with a catalogue has one as well, if its bare references allow it. -/
theorem Document.Alike.exists_collect {first second : Document} {catalogue : Catalogue}
    (alike : first.Alike second)
    (collected : Catalogue.collect .permissive first = .ok catalogue)
    (known : ∀ reference ∈ second.references, second.Introduces reference.1) :
    ∃ catalogue', Catalogue.collect .permissive second = .ok catalogue' := by
  obtain ⟨agree, whole, acyclic, fits⟩ :=
    Catalogue.exists_collect_permissive_iff.mp ⟨catalogue, collected⟩
  apply Catalogue.exists_collect_permissive_iff.mpr
  refine ⟨?_, alike.not_dangles whole known, ?_, fun unfit => fits (alike.symm.misfits unfit)⟩
  · rwa [← alike.kindsDiffer_iff]
  · rwa [← alike.circular_iff]

end EditableTemplate
