import EditableTemplate.Catalogue.Draft
import EditableTemplate.Proofs.Bindings
import EditableTemplate.Proofs.Except
import Mathlib.Data.List.Induction

/-!
# What the mentions of a variable come to

What the mentions of a variable give of one thing, say of its kind, is a list in the order of the
document (`Mention.given`). The draft of a variable has the first kind, the first label and the last
default given, and the offset of the first mention (`Mention.draft?`). Whatever the policy is,
gathering gives every mentioned variable this draft if it succeeds (`Draft.find?_of_gather`); under
the permissive policy it fails only if a variable is given two kinds
(`Draft.kindsDiffer_of_gather_error`).
-/

namespace EditableTemplate

namespace Mention

variable {α : Type} {mentions : List Mention} {name : String}

/-- What the mentions of a variable give of one thing, in order. -/
def given (field : Mention → Option α) (mentions : List Mention) (name : String) : List α :=
  mentions.filterMap fun mention => if mention.name = name then field mention else none

/-- The kinds that the mentions of a variable give it. -/
def kinds : List Mention → String → List Kind := given kind

/-- The offset of a mention that gives a default. -/
def offsetOfDefault (mention : Mention) : Option Nat :=
  mention.default.map fun _ => mention.offset

/-- The default of a variable: the last one given. -/
def default? (mentions : List Mention) (name : String) : Option Default :=
  (given default mentions name).getLast?

/-- The draft that the mentions of a variable come to, if there are any. -/
def draft? (mentions : List Mention) (name : String) : Option Draft :=
  (mentions.find? fun mention => mention.name = name).map fun first =>
    { kind := (kinds mentions name).head?
      label := (given label mentions name).head?
      default := default? mentions name
      offset := first.offset
      defaultOffset := (given offsetOfDefault mentions name).getLast?.getD first.offset }

/-- Some variable is given two different kinds. -/
def KindsDiffer (mentions : List Mention) : Prop :=
  ∃ first ∈ mentions, ∃ second ∈ mentions, first.name = second.name ∧
    ∃ kind other, first.kind = some kind ∧ second.kind = some other ∧ kind ≠ other

/-- What is given for a name is what some mention of it gives. -/
theorem mem_given_iff {field : Mention → Option α} {value : α} :
    value ∈ given field mentions name ↔
      ∃ mention ∈ mentions, mention.name = name ∧ field mention = some value := by
  simp [given, List.mem_filterMap, Option.ite_none_right_eq_some]

/-- A mention adds what it gives at the end. -/
theorem given_concat_self (field : Mention → Option α) (mentions : List Mention)
    (mention : Mention) :
    given field (mentions ++ [mention]) mention.name =
      given field mentions mention.name ++ (field mention).toList := by
  simp only [given, List.filterMap_append]
  cases gives : field mention <;> simp [gives]

theorem given_concat_other (field : Mention → Option α) (mentions : List Mention)
    {mention : Mention} (other : mention.name ≠ name) :
    given field (mentions ++ [mention]) name = given field mentions name := by
  simp [given, List.filterMap_append, other]

/-- A name that is not mentioned is given nothing. -/
theorem given_eq_nil (field : Mention → Option α)
    (absent : mentions.find? (fun mention => mention.name = name) = none) :
    given field mentions name = [] := by
  rw [List.eq_nil_iff_forall_not_mem]
  intro value member
  obtain ⟨mention, listed, named, _⟩ := mem_given_iff.mp member
  have other := List.find?_eq_none.mp absent mention listed
  exact other (decide_eq_true named)

/-- A variable has a draft exactly if it is mentioned. -/
theorem exists_draft?_iff :
    (∃ draft, draft? mentions name = some draft) ↔ ∃ mention ∈ mentions, mention.name = name := by
  rw [← Option.isSome_iff_exists, draft?, Option.isSome_map, List.find?_isSome]
  simp

/-- The kinds given agree exactly if each is the first one. -/
theorem not_kindsDiffer_iff :
    ¬KindsDiffer mentions ↔
      ∀ name, ∀ kind ∈ kinds mentions name, (kinds mentions name).head? = some kind := by
  constructor
  · intro agree name kind member
    obtain ⟨first, rest, split⟩ := List.exists_cons_of_ne_nil (List.ne_nil_of_mem member)
    have leading : first ∈ kinds mentions name := by
      rw [split]
      exact List.mem_cons_self
    obtain ⟨mention, listed, named, gives⟩ := mem_given_iff.mp leading
    obtain ⟨mention', listed', named', gives'⟩ := mem_given_iff.mp member
    rw [split, List.head?_cons]
    by_contra differ
    exact agree ⟨mention, listed, mention', listed', named.trans named'.symm, first, kind, gives,
      gives', fun same => differ (congrArg some same)⟩
  · rintro first ⟨mention, listed, mention', listed', named, kind, other, gives, gives', differ⟩
    have one := first mention.name kind (mem_given_iff.mpr ⟨mention, listed, rfl, gives⟩)
    have two := first mention.name other (mem_given_iff.mpr ⟨mention', listed', named.symm, gives'⟩)
    exact differ (Option.some.inj (one.symm.trans two))

/-- Kinds that agree still do after a mention whose kind is the first one given. -/
theorem not_kindsDiffer_concat {mention : Mention} (agree : ¬KindsDiffer mentions)
    (same : ∀ kind other, (kinds mentions mention.name).head? = some kind →
      mention.kind = some other → kind = other) : ¬KindsDiffer (mentions ++ [mention]) := by
  rw [not_kindsDiffer_iff] at agree ⊢
  intro name kind member
  by_cases named : mention.name = name
  · subst named
    rw [kinds, given_concat_self, List.mem_append] at member
    rw [kinds, given_concat_self, List.head?_append]
    rcases member with earlier | last
    · rw [← kinds, agree mention.name kind earlier]
      rfl
    · have gives : mention.kind = some kind := by simpa using last
      cases first : (kinds mentions mention.name).head? with
      | none =>
          rw [← kinds, first, gives]
          rfl
      | some leading =>
          rw [← kinds, first, same leading kind first gives]
          rfl
  · rw [kinds, given_concat_other _ _ named] at member ⊢
    exact agree name kind member

end Mention

namespace Draft

variable {policy : MergePolicy} {mentions : List Mention} {drafts : Bindings Draft}

/-- The draft after another mention that it agrees with. -/
def extend (draft : Draft) (mention : Mention) : Draft where
  kind := draft.kind.or mention.kind
  label := draft.label.or mention.label
  default := mention.default.or draft.default
  offset := draft.offset
  defaultOffset := mention.offsetOfDefault.getD draft.defaultOffset

/-- Kinds merge to the one given first, and only if they are equal. -/
theorem mergeKind_eq_ok {name : String} {existing added merged : Option Kind}
    (agreed : mergeKind name existing added = .ok merged) :
    merged = existing.or added ∧
      ∀ kind other, existing = some kind → added = some other → kind = other := by
  cases existing <;> cases added <;> simp only [mergeKind] at agreed
  case some.some kind other =>
    split at agreed
    · rename_i same
      obtain rfl := Except.ok.inj agreed
      simp [same]
    · cases agreed
  all_goals
    obtain rfl := Except.ok.inj agreed
    simp

/-- Merging kinds fails where two are given that differ, and names both. -/
theorem mergeKind_eq_error {name : String} {existing added : Option Kind} {failure : Failure}
    (refused : mergeKind name existing added = .error failure) :
    ∃ kind other, existing = some kind ∧ added = some other ∧ kind ≠ other ∧
      failure = .kindConflict name kind other := by
  cases existing <;> cases added <;> simp only [mergeKind, reduceCtorEq] at refused
  case some.some kind other =>
    split at refused
    · cases refused
    · rename_i differ
      exact ⟨kind, other, rfl, rfl, differ, (Except.error.inj refused).symm⟩

/-- The label given first stays. -/
theorem mergeLabel_eq_ok {name : String} {existing added merged : Option String}
    (agreed : mergeLabel policy name existing added = .ok merged) :
    merged = existing.or added := by
  cases existing <;> cases added <;> simp only [mergeLabel] at agreed
  case some.some first second =>
    split at agreed
    · cases agreed
    · exact (Except.ok.inj agreed).symm
  all_goals exact (Except.ok.inj agreed).symm

/-- The default given last stays. -/
theorem mergeDefault_eq_ok {name : String} {existing added merged : Option Default}
    (agreed : mergeDefault policy name existing added = .ok merged) :
    merged = added.or existing := by
  cases existing <;> cases added <;> simp only [mergeDefault] at agreed
  case some.some first second =>
    split at agreed
    · cases agreed
    · exact (Except.ok.inj agreed).symm
  all_goals exact (Except.ok.inj agreed).symm

/-- Merging extends the draft, whose kind agrees with that of the mention. -/
theorem merge_eq_ok {draft merged : Draft} {mention : Mention}
    (done : draft.merge policy mention = .ok merged) :
    merged = draft.extend mention ∧
      ∀ kind other, draft.kind = some kind → mention.kind = some other → kind = other := by
  obtain ⟨kind, kinds, rest⟩ := Except.bind_eq_ok.mp done
  obtain ⟨label, labels, last⟩ := Except.bind_eq_ok.mp rest
  obtain ⟨default, defaults, whole⟩ := Except.bind_eq_ok.mp last
  obtain ⟨rfl, agree⟩ := mergeKind_eq_ok kinds
  obtain rfl := mergeLabel_eq_ok labels
  obtain rfl := mergeDefault_eq_ok defaults
  refine ⟨?_, agree⟩
  rw [← Except.ok.inj whole, extend, Mention.offsetOfDefault]
  cases mention.default <;> rfl

/-- Under the permissive policy only another kind is refused. -/
theorem merge_permissive_eq_error {draft : Draft} {mention : Mention} {failure : Failure}
    (failed : draft.merge .permissive mention = .error failure) :
    ∃ kind other, draft.kind = some kind ∧ mention.kind = some other ∧ kind ≠ other ∧
      failure = .kindConflict mention.name kind other := by
  have label : mergeLabel .permissive mention.name draft.label mention.label =
      .ok (draft.label.or mention.label) := by
    cases draft.label <;> cases mention.label <;> simp [mergeLabel]
  have default : mergeDefault .permissive mention.name draft.default mention.default =
      .ok (mention.default.or draft.default) := by
    cases draft.default <;> cases mention.default <;> simp [mergeDefault]
  cases kinds : mergeKind mention.name draft.kind mention.kind with
  | ok kind => simp [merge, kinds, label, default, bind, Except.bind, pure, Except.pure] at failed
  | error conflict =>
      simp only [merge, kinds, bind, Except.bind] at failed
      obtain rfl := Except.error.inj failed
      exact mergeKind_eq_error kinds

/-- The last of what is there or not is what is there. -/
@[simp]
theorem getLast?_toList {α : Type} (value : Option α) : value.toList.getLast? = value := by
  cases value <;> rfl

/-- A first mention makes a draft. -/
theorem draft?_concat_first {mention : Mention}
    (absent : Mention.draft? mentions mention.name = none) :
    Mention.draft? (mentions ++ [mention]) mention.name = some (ofMention mention) := by
  have first := Option.map_eq_none_iff.mp absent
  have nothing : ∀ {β : Type} (field : Mention → Option β),
      Mention.given field mentions mention.name = [] :=
    fun field => Mention.given_eq_nil field first
  simp only [Mention.draft?, Mention.kinds, Mention.default?, List.find?_append, first,
    Mention.given_concat_self, nothing]
  cases default : mention.default <;> simp [ofMention, Mention.offsetOfDefault, default]

/-- A later mention extends the draft. -/
theorem draft?_concat_later {mention : Mention} {draft : Draft}
    (present : Mention.draft? mentions mention.name = some draft) :
    Mention.draft? (mentions ++ [mention]) mention.name = some (draft.extend mention) := by
  obtain ⟨first, found, rfl⟩ := Option.map_eq_some_iff.mp present
  simp only [Mention.draft?, Mention.kinds, Mention.default?, List.find?_append, found,
    Mention.given_concat_self]
  simp [extend]

/-- A mention of another variable does not matter. -/
theorem draft?_concat_other (mentions : List Mention) {mention : Mention} {name : String}
    (other : mention.name ≠ name) :
    Mention.draft? (mentions ++ [mention]) name = Mention.draft? mentions name := by
  simp [Mention.draft?, Mention.kinds, Mention.default?, Mention.given_concat_other _ _ other,
    List.find?_append, other]

/-- Gathering one more mention adds it to what was gathered. -/
theorem gather_concat (policy : MergePolicy) (mentions : List Mention) (mention : Mention) :
    gather policy (mentions ++ [mention]) =
      (gather policy mentions).bind fun drafts => add policy drafts mention := by
  rw [gather, List.foldlM_append, gather]
  refine congrArg _ (funext fun drafts => ?_)
  simp

/-- Adding a mention makes a draft or extends the one that is there, with whose kind it agrees. -/
theorem add_eq_ok {mention : Mention} {after : Bindings Draft}
    (added : add policy drafts mention = .ok after) :
    (drafts.find? mention.name = none ∧ after = drafts.put mention.name (ofMention mention)) ∨
    ∃ draft, drafts.find? mention.name = some draft ∧
      (∀ kind other, draft.kind = some kind → mention.kind = some other → kind = other) ∧
      after = drafts.put mention.name (draft.extend mention) := by
  unfold add at added
  cases earlier : drafts.find? mention.name with
  | none =>
      rw [earlier] at added
      exact .inl ⟨rfl, (Except.ok.inj added).symm⟩
  | some draft =>
      rw [earlier] at added
      obtain ⟨extended, merged, put⟩ := Except.map_eq_ok.mp added
      obtain ⟨rfl, agree⟩ := merge_eq_ok merged
      exact .inr ⟨draft, rfl, agree, put.symm⟩

/-- Under the permissive policy adding fails only if the mention gives another kind. -/
theorem add_permissive_eq_error {mention : Mention} {failure : Failure}
    (failed : add .permissive drafts mention = .error failure) :
    ∃ draft kind other, drafts.find? mention.name = some draft ∧ draft.kind = some kind ∧
      mention.kind = some other ∧ kind ≠ other ∧
      failure = .kindConflict mention.name kind other := by
  unfold add at failed
  cases earlier : drafts.find? mention.name with
  | none =>
      rw [earlier] at failed
      cases failed
  | some draft =>
      cases merged : draft.merge .permissive mention with
      | ok extended => simp [earlier, merged, Except.map] at failed
      | error conflict =>
          simp only [earlier, merged, Except.map] at failed
          obtain rfl := Except.error.inj failed
          obtain ⟨kind, other, conflict⟩ := merge_permissive_eq_error merged
          exact ⟨draft, kind, other, rfl, conflict⟩

/-- If each variable has its draft, it has it after another mention as well. -/
theorem find?_of_add {mention : Mention} {after : Bindings Draft}
    (found : ∀ name, drafts.find? name = Mention.draft? mentions name)
    (added : add policy drafts mention = .ok after) (name : String) :
    after.find? name = Mention.draft? (mentions ++ [mention]) name := by
  have put : ∃ draft, Mention.draft? (mentions ++ [mention]) mention.name = some draft ∧
      after = drafts.put mention.name draft := by
    rcases add_eq_ok added with ⟨absent, put⟩ | ⟨draft, present, _, put⟩
    · rw [found] at absent
      exact ⟨_, draft?_concat_first absent, put⟩
    · rw [found] at present
      exact ⟨_, draft?_concat_later present, put⟩
  obtain ⟨draft, whole, rfl⟩ := put
  rw [Bindings.find?_put]
  split
  · rename_i same
    rw [← same, whole]
  · rename_i other
    rw [draft?_concat_other mentions other, found]

/-- The kind of a draft is the first one given. -/
theorem kind_of_draft? {name : String} {draft : Draft}
    (drafted : Mention.draft? mentions name = some draft) :
    draft.kind = (Mention.kinds mentions name).head? := by
  obtain ⟨_, _, rfl⟩ := Option.map_eq_some_iff.mp drafted
  rfl

/-- Gathering gives every variable its draft and none to the others, and no kinds differ. -/
theorem find?_of_gather (gathered : gather policy mentions = .ok drafts) :
    (∀ name, drafts.find? name = Mention.draft? mentions name) ∧ ¬Mention.KindsDiffer mentions := by
  induction mentions using List.reverseRecOn generalizing drafts with
  | nil =>
      obtain rfl := Except.ok.inj gathered
      exact ⟨fun _ => rfl, fun ⟨_, member, _⟩ => nomatch member⟩
  | append_singleton mentions mention ih =>
      rw [gather_concat] at gathered
      obtain ⟨before, earlier, added⟩ := Except.bind_eq_ok.mp gathered
      obtain ⟨found, agree⟩ := ih earlier
      refine ⟨find?_of_add found added, Mention.not_kindsDiffer_concat agree ?_⟩
      intro kind other first gives
      rcases add_eq_ok added with ⟨absent, _⟩ | ⟨draft, present, same, _⟩
      · rw [found] at absent
        have none := Mention.given_eq_nil Mention.kind (Option.map_eq_none_iff.mp absent)
        rw [Mention.kinds, none] at first
        cases first
      · rw [found] at present
        exact same kind other ((kind_of_draft? present).trans first) gives

/-- Under the permissive policy gathering fails only if kinds differ. -/
theorem kindsDiffer_of_gather_error {failure : Failure}
    (failed : gather .permissive mentions = .error failure) :
    Mention.KindsDiffer mentions ∧
      ∃ name existing added, failure = .kindConflict name existing added := by
  induction mentions using List.reverseRecOn with
  | nil => cases failed
  | append_singleton mentions mention ih =>
      rw [gather_concat] at failed
      cases earlier : gather .permissive mentions with
      | error conflict =>
          rw [earlier] at failed
          obtain rfl := Except.error.inj failed
          obtain ⟨⟨first, member, second, member', differ⟩, shape⟩ := ih earlier
          exact ⟨⟨first, List.mem_append_left _ member, second, List.mem_append_left _ member',
            differ⟩, shape⟩
      | ok before =>
          rw [earlier] at failed
          obtain ⟨draft, kind, other, present, existing, gives, differ, rfl⟩ :=
            add_permissive_eq_error failed
          -- the kind of the draft comes from a mention before this one
          rw [(find?_of_gather earlier).1] at present
          rw [kind_of_draft? present] at existing
          obtain ⟨first, listed, named, given⟩ :=
            Mention.mem_given_iff.mp (List.mem_of_mem_head? existing)
          exact ⟨⟨first, List.mem_append_left _ listed, mention, by simp, named, kind, other, given,
            gives, differ⟩, _, _, _, rfl⟩

end Draft

end EditableTemplate
