import EditableTemplate.Proofs.Catalogue.Mention
import EditableTemplate.Proofs.Catalogue.Soundness

/-!
# What collecting comes to

Four things can be wrong with a document under the permissive policy: two placeholders give a
variable different kinds (`Document.KindsDiffer`), something refers to a variable that no
placeholder introduces (`Document.Dangles`), the defaults refer to each other in a circle
(`Document.Circular`), or a default does not fit the kind that its variable comes to
(`Document.Misfits`). All are said of the last default given for each variable and without an order
of the variables. The first of them that holds decides the failure, and if none does, there is a
catalogue (`Catalogue.collect_permissive_outcome`).
-/

namespace EditableTemplate

namespace Document

open Relation

variable {document : Document}

/-- A declaration or an editable reference mentions a variable. -/
def Introduces (document : Document) (name : String) : Prop :=
  ∃ mention ∈ document.mentions, mention.name = name

/-- The kinds that placeholders give a variable. -/
def kinds (document : Document) (name : String) : List Kind :=
  Mention.kinds document.mentions name

/-- The default of a variable: the last one that a placeholder gives it. -/
def default? (document : Document) (name : String) : Option Default :=
  Mention.default? document.mentions name

/-- Two placeholders give one variable different kinds. -/
def KindsDiffer (document : Document) : Prop :=
  Mention.KindsDiffer document.mentions

/-- The default of a variable refers to another one. -/
def RefersTo (document : Document) (name target : String) : Prop :=
  document.default? name = some (.reference target)

/-- A bare reference or a default refers to a variable that nothing introduces. -/
def Dangles (document : Document) : Prop :=
  ∃ name, ((∃ offset, (name, offset) ∈ document.references) ∨
    ∃ other, document.RefersTo other name) ∧ ¬document.Introduces name

/-- The defaults refer to each other in a circle. -/
def Circular (document : Document) : Prop :=
  ∃ name, TransGen document.RefersTo name name

/-- The kind that a variable comes to: the one given, else that of its default, else a string. -/
inductive FinalKind (document : Document) : String → Kind → Prop
  | given {name : String} {kind : Kind} (member : kind ∈ document.kinds name) :
      FinalKind document name kind
  | literal {name : String} {value : Value} (free : document.kinds name = [])
      (default : document.default? name = some (.literal value)) :
      FinalKind document name value.kind
  | reference {name target : String} {kind : Kind} (free : document.kinds name = [])
      (refers : document.RefersTo name target) (known : FinalKind document target kind) :
      FinalKind document name kind
  | bare {name : String} (introduced : document.Introduces name) (free : document.kinds name = [])
      (default : document.default? name = none) : FinalKind document name .string

/-- A literal default is no value of the kind of its variable, or a default refers to a variable of
a kind that is not accepted. -/
def Misfits (document : Document) : Prop :=
  ∃ name kind, document.FinalKind name kind ∧
    ((∃ value, document.default? name = some (.literal value) ∧ value.retag? kind = none) ∨
      ∃ target other, document.RefersTo name target ∧ document.FinalKind target other ∧
        kind.accepts other = false)

/-- A variable comes to one kind at most, if no kinds differ. -/
theorem FinalKind.unique (agree : ¬document.KindsDiffer) {name : String} {first second : Kind}
    (left : document.FinalKind name first) (right : document.FinalKind name second) :
    first = second := by
  induction left generalizing second with
  | given member =>
      cases right with
      | given member' =>
          have leading := Mention.not_kindsDiffer_iff.mp agree _ _ member
          exact Option.some.inj
            (leading.symm.trans (Mention.not_kindsDiffer_iff.mp agree _ _ member'))
      | literal free _ => cases (free ▸ member : _ ∈ [])
      | reference free _ _ => cases (free ▸ member : _ ∈ [])
      | bare _ free _ => cases (free ▸ member : _ ∈ [])
  | literal free default =>
      cases right with
      | given member => cases (free ▸ member : _ ∈ [])
      | literal _ default' =>
          cases default.symm.trans default'
          rfl
      | reference _ refers _ => cases default.symm.trans refers
      | bare _ _ default' => cases default.symm.trans default'
  | reference free refers _ ih =>
      cases right with
      | given member => cases (free ▸ member : _ ∈ [])
      | literal _ default => cases refers.symm.trans default
      | reference _ refers' known =>
          cases refers.symm.trans refers'
          exact ih known
      | bare _ _ default => cases refers.symm.trans default
  | bare _ free default =>
      cases right with
      | given member => cases (free ▸ member : _ ∈ [])
      | literal _ default' => cases default.symm.trans default'
      | reference _ refers _ => cases default.symm.trans refers
      | bare _ _ _ => rfl

end Document

namespace Draft

open Relation

variable {document : Document} {drafts : Bindings Draft}

/-- The references among the defaults of drafts, each with the offset of its default. -/
theorem mem_references_iff {name : String} {offset : Nat} :
    (name, offset) ∈ references drafts ↔
      ∃ other draft, drafts.find? other = some draft ∧ draft.default = some (.reference name) ∧
        draft.defaultOffset = offset := by
  simp only [references, List.mem_filterMap, Bindings.values, List.mem_map]
  constructor
  · rintro ⟨_, ⟨⟨other, draft⟩, listed, rfl⟩, refers⟩
    obtain ⟨target, bound, pair⟩ := Option.map_eq_some_iff.mp refers
    obtain ⟨rfl, rfl⟩ := Prod.mk.inj pair
    obtain ⟨default, given, targets⟩ := Option.bind_eq_some_iff.mp bound
    cases default with
    | literal value => cases targets
    | reference name =>
        obtain rfl := Option.some.inj targets
        exact ⟨other, draft, Bindings.find?_eq_some_iff.mpr listed, given, rfl⟩
  · rintro ⟨other, draft, drafted, default, rfl⟩
    refine ⟨draft, ⟨(other, draft), Bindings.find?_eq_some_iff.mp drafted, rfl⟩, ?_⟩
    rw [default]
    rfl

/-- The literal default of a variable with an entry fits the kind of the entry. -/
theorem HasEntry.retag?_ne_none {name : String} {draft : Draft} {entry : Entry} {value : Value}
    (holds : HasEntry drafts name entry) (drafted : drafts.find? name = some draft)
    (given : draft.default = some (.literal value)) : value.retag? entry.kind ≠ none := by
  cases holds with
  | bare drafted' default =>
      obtain rfl := Option.some.inj (drafted.symm.trans drafted')
      cases given.symm.trans default
  | literal drafted' default fits =>
      obtain rfl := Option.some.inj (drafted.symm.trans drafted')
      cases given.symm.trans default
      rw [Value.check_eq_ok_iff.mp fits]
      exact Option.some_ne_none _
  | reference drafted' default _ _ =>
      obtain rfl := Option.some.inj (drafted.symm.trans drafted')
      cases given.symm.trans default

/-- What the default of a variable with an entry refers to has an entry of an acceptable kind. -/
theorem HasEntry.exists_accepted {name target : String} {draft : Draft} {entry : Entry}
    (holds : HasEntry drafts name entry) (drafted : drafts.find? name = some draft)
    (given : draft.default = some (.reference target)) :
    ∃ other, HasEntry drafts target other ∧ entry.kind.accepts other.kind = true := by
  cases holds with
  | bare drafted' default =>
      obtain rfl := Option.some.inj (drafted.symm.trans drafted')
      cases given.symm.trans default
  | literal drafted' default _ =>
      obtain rfl := Option.some.inj (drafted.symm.trans drafted')
      cases given.symm.trans default
  | reference drafted' default known accepts =>
      obtain rfl := Option.some.inj (drafted.symm.trans drafted')
      cases given.symm.trans default
      exact ⟨_, known, accepts⟩

/-- The drafts are those of the variables that a document mentions. -/
def Gathered (document : Document) (drafts : Bindings Draft) : Prop :=
  ∀ name, drafts.find? name = Mention.draft? document.mentions name

namespace Gathered

variable (gathered : Gathered document drafts) {name : String} {draft : Draft}

include gathered

/-- There is a draft for the variables that the document introduces. -/
theorem mem_names_iff : name ∈ drafts.names ↔ document.Introduces name := by
  rw [Bindings.mem_names_iff, gathered name, Mention.exists_draft?_iff, Document.Introduces]

/-- The default of a draft is the last one that the document gives. -/
theorem default_eq (drafted : drafts.find? name = some draft) :
    draft.default = document.default? name := by
  rw [gathered name] at drafted
  obtain ⟨_, _, rfl⟩ := Option.map_eq_some_iff.mp drafted
  rfl

/-- The kind of a draft is the first one that the document gives. -/
theorem kind_eq (drafted : drafts.find? name = some draft) :
    draft.kind = (document.kinds name).head? :=
  kind_of_draft? ((gathered name).symm.trans drafted)

/-- A variable with a default is introduced. -/
theorem exists_draft_of_default? {default : Default}
    (given : document.default? name = some default) :
    ∃ draft, drafts.find? name = some draft ∧ draft.default = some default := by
  obtain ⟨mention, listed, named, _⟩ :=
    Mention.mem_given_iff.mp (List.mem_of_getLast? given)
  obtain ⟨draft, drafted⟩ := Mention.exists_draft?_iff.mpr ⟨mention, listed, named⟩
  rw [← gathered name] at drafted
  exact ⟨draft, drafted, (gathered.default_eq drafted).trans given⟩

/-- The references between defaults are those between drafts. -/
theorem refersTo_iff {target : String} :
    document.RefersTo name target ↔
      ∃ draft, drafts.find? name = some draft ∧ draft.default = some (.reference target) := by
  refine ⟨gathered.exists_draft_of_default?, ?_⟩
  rintro ⟨draft, drafted, default⟩
  exact (gathered.default_eq drafted).symm.trans default

/-- What dangles is a bare reference, or a reference of a draft, to a name without a draft. -/
theorem dangles_iff :
    document.Dangles ↔
      ∃ reference ∈ document.references ++ references drafts, reference.1 ∉ drafts.names := by
  constructor
  · rintro ⟨name, referred, missing⟩
    rw [← gathered.mem_names_iff] at missing
    rcases referred with ⟨offset, listed⟩ | ⟨other, refers⟩
    · exact ⟨(name, offset), List.mem_append_left _ listed, missing⟩
    · obtain ⟨draft, drafted, default⟩ := gathered.refersTo_iff.mp refers
      exact ⟨(name, draft.defaultOffset),
        List.mem_append_right _ (mem_references_iff.mpr ⟨other, draft, drafted, default, rfl⟩),
        missing⟩
  · rintro ⟨⟨name, offset⟩, listed, missing⟩
    rw [gathered.mem_names_iff] at missing
    rcases List.mem_append.mp listed with bare | drafted
    · exact ⟨name, .inl ⟨offset, bare⟩, missing⟩
    · obtain ⟨other, draft, drafted, default, _⟩ := mem_references_iff.mp drafted
      exact ⟨name, .inr ⟨other, gathered.refersTo_iff.mpr ⟨draft, drafted, default⟩⟩, missing⟩

/-- If something dangles, it is reported, and else nothing is. -/
theorem outcome_checkReferences :
    (¬document.Dangles ∧ checkReferences document drafts = .ok ()) ∨
      (document.Dangles ∧ ∃ name offset,
        checkReferences document drafts = .error (.undeclared name offset)) := by
  rw [gathered.dangles_iff]
  unfold checkReferences
  split
  · rename_i name offset found
    have missing := List.find?_some found
    rw [Bool.not_eq_true', ← Bool.not_eq_true, Bindings.contains_eq_true_iff] at missing
    exact .inr ⟨⟨(name, offset), List.mem_of_find?_eq_some found, missing⟩, name, some offset, rfl⟩
  · rename_i found
    refine .inl ⟨?_, rfl⟩
    rintro ⟨reference, listed, missing⟩
    have known := List.find?_eq_none.mp found reference listed
    exact missing (by simpa using known)

/-- The dependencies of the drafts are the references between defaults. -/
theorem depends_iff {target : String} :
    (graph drafts).Depends name target ↔ document.RefersTo name target := by
  rw [graph, DependencyGraph.depends_ofDefaults_iff, Bindings.find?_map, Option.map_eq_some_iff,
    gathered.refersTo_iff]

/-- If nothing dangles, the links of the drafts are the references between defaults. -/
theorem links_iff (whole : ¬document.Dangles) {target : String} :
    (graph drafts).Links name target ↔ document.RefersTo name target := by
  rw [DependencyGraph.Links, gathered.depends_iff, names_graph, gathered.mem_names_iff]
  refine ⟨And.left, fun refers => ⟨refers, ?_⟩⟩
  by_contra missing
  exact whole ⟨target, .inr ⟨name, refers⟩, missing⟩

/-- If every reference is to a variable, the links of the drafts are the references. -/
theorem links_eq (whole : ¬document.Dangles) : (graph drafts).Links = document.RefersTo := by
  funext name target
  exact propext (gathered.links_iff whole)

/-- If every reference is to a variable, the drafts are acyclic exactly where no references go
round. -/
theorem acyclic_iff (whole : ¬document.Dangles) :
    (graph drafts).Acyclic ↔ ¬document.Circular := by
  rw [DependencyGraph.Acyclic, gathered.links_eq whole, Document.Circular, not_exists]

/-- The kind that a draft gives, or another one if it gives none, is final if that one is. -/
theorem finalKind_getD (drafted : drafts.find? name = some draft) {kind : Kind}
    (inferred : document.kinds name = [] → document.FinalKind name kind) :
    document.FinalKind name (draft.kind.getD kind) := by
  have first := gathered.kind_eq drafted
  cases kinds : document.kinds name with
  | nil =>
      rw [first, kinds]
      exact inferred kinds
  | cons leading rest =>
      have member : leading ∈ document.kinds name := by
        rw [kinds]
        exact List.mem_cons_self
      rw [first, kinds]
      exact .given member

/-- The kind of an entry is the one that its variable comes to. -/
theorem finalKind_of_hasEntry {entry : Entry} (holds : HasEntry drafts name entry) :
    document.FinalKind name entry.kind := by
  induction holds with
  | bare drafted default =>
      refine gathered.finalKind_getD drafted fun free => ?_
      have introduced := gathered.mem_names_iff.mp (Bindings.mem_names_of_find? drafted)
      exact .bare introduced free ((gathered.default_eq drafted).symm.trans default)
  | literal drafted default _ =>
      exact gathered.finalKind_getD drafted fun free =>
        .literal free ((gathered.default_eq drafted).symm.trans default)
  | reference drafted default _ _ ih =>
      exact gathered.finalKind_getD drafted fun free =>
        .reference free ((gathered.default_eq drafted).symm.trans default) ih

/-- If all variables have entries, every default fits. -/
theorem not_misfits (agree : ¬document.KindsDiffer)
    (all : ∀ name ∈ drafts.names, ∃ entry, HasEntry drafts name entry) : ¬document.Misfits := by
  rintro ⟨name, kind, final, ⟨value, default, unfit⟩ | ⟨target, other, refers, final', refused⟩⟩
  · obtain ⟨draft, drafted, given⟩ := gathered.exists_draft_of_default? default
    obtain ⟨entry, holds⟩ := all name (Bindings.mem_names_of_find? drafted)
    obtain rfl := final.unique agree (gathered.finalKind_of_hasEntry holds)
    exact holds.retag?_ne_none drafted given unfit
  · obtain ⟨draft, drafted, given⟩ := gathered.refersTo_iff.mp refers
    obtain ⟨entry, holds⟩ := all name (Bindings.mem_names_of_find? drafted)
    obtain rfl := final.unique agree (gathered.finalKind_of_hasEntry holds)
    obtain ⟨_, known, accepts⟩ := holds.exists_accepted drafted given
    obtain rfl := final'.unique agree (gathered.finalKind_of_hasEntry known)
    cases refused.symm.trans accepts

/-- A draft that can not be settled has a default that does not fit, and that is what is reported:
what the default refers to has been settled before. -/
theorem misfits_of_settle_error {before after : List String} {entries : Bindings Entry}
    {failure : Failure} (whole : ¬document.Dangles)
    (scheduled : (graph drafts).schedule = .ok (before ++ name :: after))
    (filled : Bindings.Filled (HasEntry drafts) before entries)
    (drafted : drafts.find? name = some draft)
    (failed : settle name draft entries = .error failure) :
    document.Misfits ∧ ∃ name expected found value,
      failure = .mismatch name expected found value := by
  have given := gathered.default_eq drafted
  cases default : draft.default with
  | none =>
      simp only [settle, settleDefault, default] at failed
      cases failed
  | some chosen =>
      rw [default] at given
      cases chosen with
      | literal value =>
          have final := gathered.finalKind_getD drafted fun free => .literal free given.symm
          simp only [settle, settleDefault, default, settleLiteral, Value.check] at failed
          cases unfit : value.retag? (draft.kind.getD value.kind) with
          | some result =>
              rw [unfit] at failed
              cases failed
          | none =>
              rw [unfit] at failed
              refine ⟨⟨name, _, final, .inl ⟨value, given.symm, unfit⟩⟩, ?_⟩
              exact ⟨_, _, _, _, (Except.error.inj failed).symm⟩
      | reference target =>
          have earlier := (DependencyGraph.perm_names_of_schedule scheduled).2 before name after rfl
            target ((gathered.links_iff whole).mpr given.symm)
          obtain ⟨entry, stored, holds⟩ := filled.exists_of_mem earlier
          have known := gathered.finalKind_of_hasEntry holds
          have final := gathered.finalKind_getD drafted fun free =>
            .reference free given.symm known
          simp only [settle, settleDefault, default, stored, settleReference] at failed
          split at failed
          · cases failed
          · rename_i refused
            rw [Bool.not_eq_true] at refused
            refine ⟨⟨name, _, final, .inr ⟨target, _, given.symm, known, refused⟩⟩, ?_⟩
            exact ⟨_, _, _, _, (Except.error.inj failed).symm⟩

end Gathered

end Draft

namespace Catalogue

variable {document : Document}

/-- What collecting comes to under the permissive policy. -/
inductive Outcome (document : Document) : Except Failure Catalogue → Prop
  | kinds {name : String} {existing added : Kind} (differ : document.KindsDiffer) :
      Outcome document (.error (.kindConflict name existing added))
  | dangling {name : String} {offset : Option Nat} (agree : ¬document.KindsDiffer)
      (dangles : document.Dangles) : Outcome document (.error (.undeclared name offset))
  | circle {members : List String} (agree : ¬document.KindsDiffer) (whole : ¬document.Dangles)
      (circular : document.Circular) : Outcome document (.error (.cycle members))
  | misfit {name : String} {expected : Kind} {found : Found} {value : Datum}
      (agree : ¬document.KindsDiffer) (whole : ¬document.Dangles)
      (acyclic : ¬document.Circular) (misfits : document.Misfits) :
      Outcome document (.error (.mismatch name expected found value))
  | collected {catalogue : Catalogue} (agree : ¬document.KindsDiffer)
      (whole : ¬document.Dangles) (acyclic : ¬document.Circular)
      (fits : ¬document.Misfits) : Outcome document (.ok catalogue)

/-- Collecting under the permissive policy has the outcome that the document determines. -/
theorem outcome_collect (document : Document) :
    Outcome document (collect .permissive document) := by
  unfold collect
  cases drafted : Draft.gather .permissive document.mentions with
  | error failure =>
      obtain ⟨differ, _, _, _, rfl⟩ := Draft.kindsDiffer_of_gather_error drafted
      exact .kinds differ
  | ok drafts =>
      obtain ⟨gathered, agree⟩ := Draft.find?_of_gather drafted
      change Draft.Gathered document drafts at gathered
      change ¬document.KindsDiffer at agree
      rcases gathered.outcome_checkReferences with ⟨whole, checked⟩ | ⟨dangles, _, _, checked⟩
      · cases scheduled : (Draft.graph drafts).schedule with
        | error failure =>
            obtain ⟨members, rfl, circle⟩ := DependencyGraph.isCircle_of_schedule scheduled
            have circular : document.Circular := by
              by_contra acyclic
              exact circle.not_acyclic ((gathered.acyclic_iff whole).mpr acyclic)
            simp only [bind, Except.bind, checked, scheduled]
            exact .circle agree whole circular
        | ok order =>
            have acyclic : ¬document.Circular := by
              rw [← gathered.acyclic_iff whole, ← DependencyGraph.schedule_isOk_iff_acyclic]
              exact ⟨order, scheduled⟩
            rcases Draft.foldlM_settleNext scheduled with ⟨entries, settled, filled⟩ |
              ⟨before, name, after, entries, draft, failure, split, filled, found, failed, ended⟩
            · simp only [bind, Except.bind, checked, scheduled, settled]
              refine .collected agree whole acyclic (gathered.not_misfits agree ?_)
              intro name member
              rw [← Draft.names_graph,
                ← (DependencyGraph.perm_names_of_schedule scheduled).1.mem_iff] at member
              obtain ⟨entry, _, holds⟩ := filled.exists_of_mem member
              exact ⟨entry, holds⟩
            · rw [split] at scheduled
              obtain ⟨misfits, _, _, _, _, rfl⟩ :=
                gathered.misfits_of_settle_error whole scheduled filled found failed
              simp only [bind, Except.bind, checked, scheduled, ← split, ended]
              exact .misfit agree whole acyclic misfits
      · simp only [bind, Except.bind, checked]
        exact .dangling agree dangles

/-- **What collecting comes to.** Under the permissive policy the first of four defects that a
document has decides the failure, a document without any has a catalogue, and there is no other
failure. -/
theorem collect_permissive_outcome (document : Document) :
    ((∃ name existing added,
        collect .permissive document = .error (.kindConflict name existing added)) ↔
      document.KindsDiffer) ∧
    ((∃ name offset, collect .permissive document = .error (.undeclared name offset)) ↔
      ¬document.KindsDiffer ∧ document.Dangles) ∧
    ((∃ members, collect .permissive document = .error (.cycle members)) ↔
      ¬document.KindsDiffer ∧ ¬document.Dangles ∧ document.Circular) ∧
    ((∃ name expected found value,
        collect .permissive document = .error (.mismatch name expected found value)) ↔
      ¬document.KindsDiffer ∧ ¬document.Dangles ∧ ¬document.Circular ∧ document.Misfits) ∧
    ((∃ catalogue, collect .permissive document = .ok catalogue) ↔
      ¬document.KindsDiffer ∧ ¬document.Dangles ∧ ¬document.Circular ∧ ¬document.Misfits) ∧
    ∀ failure, collect .permissive document = .error failure →
      (∃ name existing added, failure = .kindConflict name existing added) ∨
      (∃ name offset, failure = .undeclared name offset) ∨
      (∃ members, failure = .cycle members) ∨
      ∃ name expected found value, failure = .mismatch name expected found value := by
  have outcome := outcome_collect document
  revert outcome
  generalize collect .permissive document = result
  intro outcome
  cases outcome with
  | kinds differ => simp [differ]
  | dangling agree dangles => simp [agree, dangles]
  | circle agree whole circular => simp [agree, whole, circular]
  | misfit agree whole acyclic misfits => simp [agree, whole, acyclic, misfits]
  | collected agree whole acyclic fits => simp [agree, whole, acyclic, fits]

/-! ## Documents that are collected -/

section

variable {policy : MergePolicy} {catalogue : Catalogue}
  (collected : collect policy document = .ok catalogue)

include collected

/-- The kinds of a document that is collected do not differ. -/
theorem not_kindsDiffer_of_collect : ¬document.KindsDiffer := by
  obtain ⟨_, ran, _, _⟩ := collects_of_collect collected
  exact (Draft.find?_of_gather ran).2

/-- What a collected document refers to is introduced. -/
theorem not_dangles_of_collect : ¬document.Dangles := by
  obtain ⟨drafts, ran, checked, _⟩ := collects_of_collect collected
  have gathered : Draft.Gathered document drafts := (Draft.find?_of_gather ran).1
  rcases gathered.outcome_checkReferences with ⟨whole, _⟩ | ⟨_, _, _, refused⟩
  · exact whole
  · cases checked.symm.trans refused

/-- A document that is collected introduces every variable it shows. -/
theorem introduces_of_collect {reference : String × Nat}
    (listed : reference ∈ document.references) : document.Introduces reference.1 := by
  by_contra missing
  exact not_dangles_of_collect collected ⟨reference.1, .inl ⟨reference.2, listed⟩, missing⟩

/-- A document that is collected introduces every variable a default refers to. -/
theorem introduces_of_refersTo {name target : String} (refers : document.RefersTo name target) :
    document.Introduces target := by
  by_contra missing
  exact not_dangles_of_collect collected ⟨target, .inr ⟨name, refers⟩, missing⟩

/-- The variables of a catalogue are those that are introduced. -/
theorem introduces_iff_of_collect {name : String} :
    document.Introduces name ↔ ∃ entry ∈ catalogue, entry.name = name := by
  obtain ⟨drafts, ran, _, collects⟩ := collects_of_collect collected
  have gathered : Draft.Gathered document drafts := (Draft.find?_of_gather ran).1
  rw [← gathered.mem_names_iff, ← collects.names, List.mem_map]

end

end Catalogue

end EditableTemplate
