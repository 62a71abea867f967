import EditableTemplate.Proofs.Catalogue.Outcome
import EditableTemplate.Proofs.Meaning

/-!
# The strict policy

Under the strict policy a mention is compared only with the draft so far, that is with the first
label and the last default before it. Yet that makes all labels of a variable equal, and all its
defaults mean the same, because what a default means is compared and that is transitive
(`Draft.gather_strict_eq_ok`). Apart from these comparisons the policies do not differ, so the
strict one accepts the documents in which labels and defaults agree among those that the permissive
one accepts, and gives them the same catalogues (`Catalogue.collect_strict_restricts`).
-/

namespace EditableTemplate

namespace Mention

variable {α β : Type} {field : Mention → Option α} {meaning : α → β} {mentions : List Mention}
  {mention : Mention}

/-- All that the mentions of a variable give of one thing means the same. -/
def Agree (field : Mention → Option α) (meaning : α → β) (mentions : List Mention) : Prop :=
  ∀ name, ∀ first ∈ given field mentions name, ∀ second ∈ given field mentions name,
    meaning first = meaning second

theorem agree_nil : Agree field meaning [] :=
  fun _ _ member => nomatch member

/-- One more mention takes nothing away from what has been given. -/
theorem given_subset (field : Mention → Option α) (mentions : List Mention) (mention : Mention)
    (name : String) : given field mentions name ⊆ given field (mentions ++ [mention]) name := by
  rw [given, given, List.filterMap_append]
  exact List.subset_append_left _ _

/-- One more mention agrees with the others if what it gives means what they gave. -/
theorem agree_concat_iff :
    Agree field meaning (mentions ++ [mention]) ↔
      Agree field meaning mentions ∧ ∀ earlier ∈ given field mentions mention.name,
        ∀ added, field mention = some added → meaning earlier = meaning added := by
  constructor
  · intro agree
    constructor
    · intro name first member second member'
      have larger := given_subset field mentions mention name
      exact agree name first (larger member) second (larger member')
    · intro earlier member added gives
      have last : added ∈ given field (mentions ++ [mention]) mention.name :=
        mem_given_iff.mpr ⟨mention, by simp, rfl, gives⟩
      exact agree mention.name earlier (given_subset field mentions mention _ member) added last
  · rintro ⟨agree, fits⟩ name first member second member'
    by_cases named : mention.name = name
    · subst named
      rw [given_concat_self, List.mem_append, Option.mem_toList] at member member'
      rcases member with earlier | gives <;> rcases member' with earlier' | gives'
      · exact agree mention.name first earlier second earlier'
      · exact fits first earlier second gives'
      · exact (fits second earlier' first gives).symm
      · exact congrArg meaning (Option.some.inj (gives.symm.trans gives'))
    · rw [given_concat_other field mentions named] at member member'
      exact agree name first member second member'

/-- If the others agree, it is enough to compare with any one of them. -/
theorem agree_concat_iff_of_mem {chosen : Option α} (mention : Mention)
    (agree : Agree field meaning mentions)
    (member : ∀ earlier, chosen = some earlier → earlier ∈ given field mentions mention.name)
    (empty : chosen = none → given field mentions mention.name = []) :
    Agree field meaning (mentions ++ [mention]) ↔
      ∀ earlier added, chosen = some earlier → field mention = some added →
        meaning earlier = meaning added := by
  rw [agree_concat_iff, and_iff_right agree]
  constructor
  · intro fits earlier added present gives
    exact fits earlier (member earlier present) added gives
  · intro fits earlier listed added gives
    cases present : chosen with
    | none =>
        rw [empty present] at listed
        cases listed
    | some one =>
        have same := agree mention.name earlier listed one (member one present)
        exact same.trans (fits one added present gives)

end Mention

namespace Draft

variable {mentions : List Mention} {mention : Mention} {drafts after : Bindings Draft}
  {draft merged : Draft} {name : String}

/-- The strict policy merges labels as the permissive one does, but only equal ones. -/
theorem mergeLabel_strict_eq_ok {existing added result : Option String} :
    mergeLabel .strict name existing added = .ok result ↔
      mergeLabel .permissive name existing added = .ok result ∧
        ∀ first second, existing = some first → added = some second → first = second := by
  cases existing with
  | none => cases added <;> simp [mergeLabel]
  | some first =>
      cases added with
      | none => simp [mergeLabel]
      | some second => by_cases same : first = second <;> simp [mergeLabel, same]

/-- The strict policy merges defaults as the permissive one does, but only those of one meaning. -/
theorem mergeDefault_strict_eq_ok {existing added result : Option Default} :
    mergeDefault .strict name existing added = .ok result ↔
      mergeDefault .permissive name existing added = .ok result ∧
        ∀ first second, existing = some first → added = some second →
          first.meaning = second.meaning := by
  cases existing with
  | none => cases added <;> simp [mergeDefault]
  | some first =>
      cases added with
      | none => simp [mergeDefault]
      | some second =>
          have decided : first.agrees second = true ↔ first.meaning = second.meaning :=
            Default.agrees_iff_meaning
          by_cases same : first.meaning = second.meaning
          · simp [mergeDefault, same, decided.mpr same]
          · have refused : first.agrees second = false :=
              Bool.eq_false_iff.mpr fun agrees => same (decided.mp agrees)
            simp [mergeDefault, same, refused]

/-- The label and the default of a mention are those that the draft has. -/
structure Matches (draft : Draft) (mention : Mention) : Prop where
  label : ∀ first second, draft.label = some first → mention.label = some second → first = second
  default : ∀ first second, draft.default = some first → mention.default = some second →
    first.meaning = second.meaning

/-- The strict policy merges a mention as the permissive one does, if it matches the draft. -/
theorem merge_strict_eq_ok :
    draft.merge .strict mention = .ok merged ↔
      draft.merge .permissive mention = .ok merged ∧ draft.Matches mention := by
  unfold merge
  simp only [Except.bind_eq_ok, mergeLabel_strict_eq_ok, mergeDefault_strict_eq_ok]
  constructor
  · rintro ⟨kind, kinds, label, ⟨labels, first⟩, default, ⟨defaults, second⟩, whole⟩
    exact ⟨⟨kind, kinds, label, labels, default, defaults, whole⟩, first, second⟩
  · rintro ⟨⟨kind, kinds, label, labels, default, defaults, whole⟩, first, second⟩
    exact ⟨kind, kinds, label, ⟨labels, first⟩, default, ⟨defaults, second⟩, whole⟩

/-- The strict policy adds a mention as the permissive one does, if it matches the draft that is
there. -/
theorem add_strict_eq_ok :
    add .strict drafts mention = .ok after ↔
      add .permissive drafts mention = .ok after ∧
        ∀ draft, drafts.find? mention.name = some draft → draft.Matches mention := by
  unfold add
  cases earlier : drafts.find? mention.name with
  | none => simp
  | some draft =>
      simp only [Except.map_eq_ok, merge_strict_eq_ok, Option.some.injEq, forall_eq']
      constructor
      · rintro ⟨merged, ⟨done, agrees⟩, put⟩
        exact ⟨⟨merged, done, put⟩, agrees⟩
      · rintro ⟨⟨merged, done, put⟩, agrees⟩
        exact ⟨merged, ⟨done, agrees⟩, put⟩

/-- Labels and defaults that agree still do after a mention exactly if it matches the draft. -/
theorem matches_iff_agree (labels : Mention.Agree Mention.label id mentions)
    (defaults : Mention.Agree Mention.default Default.meaning mentions)
    (found : drafts.find? mention.name = Mention.draft? mentions mention.name) :
    (∀ draft, drafts.find? mention.name = some draft → draft.Matches mention) ↔
      Mention.Agree Mention.label id (mentions ++ [mention]) ∧
        Mention.Agree Mention.default Default.meaning (mentions ++ [mention]) := by
  rw [found]
  have label := Mention.agree_concat_iff_of_mem mention labels
    (fun _ => List.mem_of_mem_head?) List.head?_eq_none_iff.mp
  have default := Mention.agree_concat_iff_of_mem mention defaults
    (fun _ => List.mem_of_getLast?) List.getLast?_eq_none_iff.mp
  rw [label, default]
  cases drafted : Mention.draft? mentions mention.name with
  | none =>
      have absent := Option.map_eq_none_iff.mp drafted
      simp [Mention.given_eq_nil _ absent]
  | some draft =>
      obtain ⟨first, _, rfl⟩ := Option.map_eq_some_iff.mp drafted
      constructor
      · intro agrees
        have one := agrees _ rfl
        exact ⟨one.label, one.default⟩
      · rintro ⟨one, other⟩ _ ⟨⟩
        exact ⟨one, other⟩

/-- The strict policy gathers what the permissive one does, if labels and defaults agree. -/
theorem gather_strict_eq_ok :
    gather .strict mentions = .ok drafts ↔
      gather .permissive mentions = .ok drafts ∧ Mention.Agree Mention.label id mentions ∧
        Mention.Agree Mention.default Default.meaning mentions := by
  induction mentions using List.reverseRecOn generalizing drafts with
  | nil => exact ⟨fun gathered => ⟨gathered, Mention.agree_nil, Mention.agree_nil⟩, And.left⟩
  | append_singleton mentions mention ih =>
      simp only [gather_concat]
      constructor
      · intro gathered
        obtain ⟨before, earlier, added⟩ := Except.bind_eq_ok.mp gathered
        obtain ⟨permitted, labels, defaults⟩ := ih.mp earlier
        obtain ⟨accepted, fits⟩ := add_strict_eq_ok.mp added
        have found := (find?_of_gather permitted).1 mention.name
        exact ⟨Except.bind_eq_ok.mpr ⟨before, permitted, accepted⟩,
          (matches_iff_agree labels defaults found).mp fits⟩
      · rintro ⟨gathered, labels, defaults⟩
        obtain ⟨before, permitted, accepted⟩ := Except.bind_eq_ok.mp gathered
        have labels' := (Mention.agree_concat_iff.mp labels).1
        have defaults' := (Mention.agree_concat_iff.mp defaults).1
        have found := (find?_of_gather permitted).1 mention.name
        have fits := (matches_iff_agree labels' defaults' found).mpr ⟨labels, defaults⟩
        exact Except.bind_eq_ok.mpr
          ⟨before, ih.mpr ⟨permitted, labels', defaults'⟩, add_strict_eq_ok.mpr ⟨accepted, fits⟩⟩

end Draft

namespace Document

/-- All labels that a variable is given are equal. -/
def LabelsAgree (document : Document) : Prop :=
  ∀ name, ∀ first ∈ Mention.given Mention.label document.mentions name,
    ∀ second ∈ Mention.given Mention.label document.mentions name, first = second

/-- All defaults that a variable is given mean the same. -/
def DefaultsAgree (document : Document) : Prop :=
  ∀ name, ∀ first ∈ Mention.given Mention.default document.mentions name,
    ∀ second ∈ Mention.given Mention.default document.mentions name,
      first.meaning = second.meaning

end Document

namespace Catalogue

variable {document : Document} {catalogue : Catalogue}

/-- The strict policy collects what the permissive one does, from documents whose labels and
defaults agree. -/
theorem collect_strict_eq_ok :
    collect .strict document = .ok catalogue ↔
      collect .permissive document = .ok catalogue ∧ document.LabelsAgree ∧
        document.DefaultsAgree := by
  unfold collect
  simp only [Except.bind_eq_ok, Draft.gather_strict_eq_ok]
  constructor
  · rintro ⟨drafts, ⟨gathered, labels, defaults⟩, rest⟩
    exact ⟨⟨drafts, gathered, rest⟩, labels, defaults⟩
  · rintro ⟨⟨drafts, gathered, rest⟩, labels, defaults⟩
    exact ⟨drafts, ⟨gathered, labels, defaults⟩, rest⟩

/-- **The strict policy restricts the permissive one.** It accepts a document exactly if the
permissive policy does and, for every variable, all labels are equal and all defaults mean the same.
Where both accept a document, the catalogue is the same. -/
theorem collect_strict_restricts (document : Document) :
    ((∃ catalogue, collect .strict document = .ok catalogue) ↔
      (∃ catalogue, collect .permissive document = .ok catalogue) ∧ document.LabelsAgree ∧
        document.DefaultsAgree) ∧
    ∀ strict permissive, collect .strict document = .ok strict →
      collect .permissive document = .ok permissive → strict = permissive := by
  constructor
  · constructor
    · rintro ⟨catalogue, collected⟩
      obtain ⟨permitted, agreed⟩ := collect_strict_eq_ok.mp collected
      exact ⟨⟨catalogue, permitted⟩, agreed⟩
    · rintro ⟨⟨catalogue, permitted⟩, agreed⟩
      exact ⟨catalogue, collect_strict_eq_ok.mpr ⟨permitted, agreed⟩⟩
  · intro strict permissive collected permitted
    have same := (collect_strict_eq_ok.mp collected).1.symm.trans permitted
    exact Except.ok.inj same

end Catalogue

end EditableTemplate
