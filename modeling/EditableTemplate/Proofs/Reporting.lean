import EditableTemplate.Proofs.Number.Rounding
import EditableTemplate.Proofs.Rendering
import EditableTemplate.Proofs.Resolution.Soundness
import EditableTemplate.Proofs.Session

/-!
# Failures are reported

A failure can be put into words if it shows no number with too many digits. What a template spells
has few enough, and so do the overrides if they can be written, and a failure shows nothing but
parts of these: the defaults that disagree or do not fit (`Catalogue.reportable_collect`), and the
override that does not fit (`Document.reportable_resolve`). So rendering with such overrides is
always reported as a result (`Session.renderResult_reports`). A number with too many digits is what
is left: it is a value like any other until it is put out, which fails in a way that is not
reported.
-/

namespace EditableTemplate

open Except (FailsOnly failsOnly_ok failsOnly_error)

/-- The power of ten with one digit more than allowed can not be written. -/
theorem Digits.fits_tenPow_limit : fits (tenPow limit) = false := by
  rw [fits, Int.natAbs_natCast, decide_eq_false_iff_not]
  intro few
  exact absurd (lt_tenPow_count (tenPow limit)) (not_lt.mpr (tenPow_le few))

/-- Every failure of an outcome can be put into words. -/
def Reportable {α : Type} (outcome : Except Failure α) : Prop :=
  outcome.FailsOnly fun failure => failure.writable = true

/-- A failed check of a value can be reported. -/
theorem Value.reportable_check (name : String) {value : Value} (declared : Kind)
    (writable : value.writable = true) : Reportable (value.check name declared) := by
  unfold Value.check
  split
  · exact failsOnly_ok _
  · apply failsOnly_error
    cases value with
    | number amount => cases amount <;> exact writable
    | string text => rfl
    | boolean truth => rfl
    | color text => rfl

theorem Datum.reportable_check (name : String) {datum : Datum} (declared : Kind)
    (writable : datum.writable = true) : Reportable (datum.check name declared) := by
  unfold Datum.check
  split
  · exact Value.reportable_check name declared (writable_of_wrap ‹_› writable)
  · exact failsOnly_error writable

/-! ## Collecting -/

namespace Draft

variable {policy : MergePolicy}

theorem reportable_mergeKind (name : String) (existing added : Option Kind) :
    Reportable (mergeKind name existing added) := by
  fun_cases mergeKind name existing added <;>
    first | exact failsOnly_ok _ | exact failsOnly_error rfl

theorem reportable_mergeLabel (policy : MergePolicy) (name : String)
    (existing added : Option String) : Reportable (mergeLabel policy name existing added) := by
  fun_cases mergeLabel policy name existing added <;>
    first | exact failsOnly_ok _ | exact failsOnly_error rfl

/-- A conflict of defaults can be reported. -/
theorem reportable_mergeDefault (policy : MergePolicy) (name : String)
    {existing added : Option Default}
    (left : ∀ default, existing = some default → default.Writable)
    (right : ∀ default, added = some default → default.Writable) :
    Reportable (mergeDefault policy name existing added) := by
  fun_cases mergeDefault policy name existing added with
  | case1 first second differ =>
      apply failsOnly_error
      have one := left first rfl
      have two := right second rfl
      cases first with
      | literal value =>
          cases second with
          | literal other => exact Bool.and_eq_true_iff.mpr ⟨one value rfl, two other rfl⟩
          | reference target => exact one value rfl
      | reference target =>
          cases second with
          | literal other => exact two other rfl
          | reference other => rfl
  | case2 => exact failsOnly_ok _
  | case3 => exact failsOnly_ok _
  | case4 => exact failsOnly_ok _

/-- A mention that can not be added can be reported. -/
theorem reportable_add {drafts : Bindings Draft} {mention : Mention}
    (drafted : ∀ draft default, drafts.find? mention.name = some draft →
      draft.default = some default → default.Writable)
    (given : ∀ default, mention.default = some default → default.Writable) :
    Reportable (add policy drafts mention) := by
  unfold add
  cases earlier : drafts.find? mention.name with
  | none => exact failsOnly_ok _
  | some draft =>
      refine FailsOnly.map ?_
      have kinds := reportable_mergeKind mention.name draft.kind mention.kind
      have labels := reportable_mergeLabel policy mention.name draft.label mention.label
      have defaults := reportable_mergeDefault policy mention.name (drafted draft · earlier) given
      refine kinds.bind fun _ _ => labels.bind fun _ _ => defaults.bind fun _ _ => failsOnly_ok _

/-- Induction on the mentions: the default of a draft is that of an earlier mention. -/
theorem reportable_gather {mentions : List Mention}
    (given : ∀ mention ∈ mentions, ∀ default, mention.default = some default →
      default.Writable) : Reportable (gather policy mentions) := by
  induction mentions using List.reverseRecOn with
  | nil => exact failsOnly_ok _
  | append_singleton mentions mention ih =>
      rw [gather_concat]
      have before := ih fun other member => given other (List.mem_append_left _ member)
      refine before.bind fun drafts gathered => ?_
      refine reportable_add ?_ (given mention (by simp))
      intro draft default drafted said
      rw [(find?_of_gather gathered).1] at drafted
      obtain ⟨_, _, rfl⟩ := Option.map_eq_some_iff.mp drafted
      obtain ⟨other, member, _, gives⟩ := Mention.mem_given_iff.mp (List.mem_of_getLast? said)
      exact given other (List.mem_append_left _ member) default gives

theorem reportable_checkReferences (document : Document) (drafts : Bindings Draft) :
    Reportable (checkReferences document drafts) := by
  unfold checkReferences
  split
  · exact failsOnly_error rfl
  · exact failsOnly_ok _

/-- A draft that can not be settled can be reported. -/
theorem reportable_settle (name : String) {draft : Draft} (entries : Bindings Entry)
    (given : ∀ default, draft.default = some default → default.Writable) :
    Reportable (settle name draft entries) := by
  have settled : Reportable (settleDefault name draft entries) := by
    unfold settleDefault
    split
    · exact failsOnly_ok _
    · exact (Value.reportable_check _ _ (given _ ‹_› _ rfl)).map
    · split
      · unfold settleReference
        simp only
        split
        · exact failsOnly_ok _
        · exact failsOnly_error rfl
      · exact failsOnly_error rfl
  exact settled.bind fun _ _ => failsOnly_ok _

end Draft

/-- Whatever makes it impossible to collect a parsed document can be put into words. -/
theorem Catalogue.reportable_collect {source : String} {document : Document}
    (parsed : Document.parse source = .ok document) (policy : MergePolicy) :
    Reportable (collect policy document) := by
  have given : ∀ mention ∈ document.mentions, ∀ default, mention.default = some default →
      default.Writable := fun mention member default said =>
    ((Document.spellable_of_mem_mentions parsed member).default default said).writable
  refine (Draft.reportable_gather given).bind fun drafts gathers => ?_
  refine (Draft.reportable_checkReferences document drafts).bind fun _ _ => ?_
  refine FailsOnly.bind ?_ fun order scheduled => FailsOnly.bind ?_ fun _ _ => failsOnly_ok _
  · intro failure failed
    obtain ⟨members, rfl, _⟩ := DependencyGraph.isCircle_of_schedule failed
    rfl
  · intro failure failed
    rcases Draft.foldlM_settleNext scheduled with ⟨_, ran, _⟩ |
      ⟨_, name, _, entries, draft, _, _, _, drafted, refused, ended⟩
    · cases ran.symm.trans failed
    · obtain rfl := Except.error.inj (ended.symm.trans failed)
      -- A default does not fit as the document gives it, before it is retagged to its kind.
      have gathered : Draft.Gathered document drafts := (Draft.find?_of_gather gathers).1
      refine Draft.reportable_settle name entries ?_ _ refused
      intro default said
      rw [gathered.default_eq drafted] at said
      exact (Document.spellable_of_default? parsed said).writable

/-! ## Resolving and rendering -/

namespace Document

variable {source : String} {document : Document} {overrides : OverrideSource}

/-- Whatever makes it impossible to resolve a parsed document can be put into words, if the
overrides can be written. -/
theorem reportable_resolve (parsed : parse source = .ok document) (writable : overrides.Writable)
    (policy : Policy) : Reportable (document.resolve policy overrides) := by
  refine (Catalogue.reportable_collect parsed policy.merge).bind fun catalogue collected => ?_
  intro failure failed
  cases Resolution.cause_of_resolve_error (Catalogue.sound_of_collect collected) failed with
  | invalid => rfl
  | unknown => rfl
  | missing => rfl
  | override normal _ overridden refused =>
      exact Datum.reportable_check _ _ (writable _ normal _ _ overridden) _ refused
  | color => rfl

/-- Rendering with overrides that can be written fails only with what can be reported. -/
theorem reportable_renderWith (parsed : parse source = .ok document)
    (writable : overrides.Writable) (policy : Policy) :
    (document.renderWith policy overrides).FailsOnly fun fault =>
      ∃ failure, fault = .failure failure ∧ failure.writable = true := by
  unfold renderWith
  cases resolved : document.resolve policy overrides with
  | error failure =>
      exact failsOnly_error ⟨failure, rfl, reportable_resolve parsed writable policy _ resolved⟩
  | ok values =>
      obtain ⟨output, rendered, _⟩ := exists_render parsed writable resolved
      simp only [rendered]
      exact failsOnly_ok output

end Document

namespace Session

variable {source : String} {template : Template} {session : Session} {overrides : OverrideSource}

/-- **Failures are reported.** However a session of a parsed template came to be, rendering with
overrides that can be written is answered with a result. It has the output if there is one, and no
output and the failure in words if rendering fails. -/
theorem renderResult_reports (parsed : Document.parse source = .ok template.document)
    (faithful : Faithful template session) (writable : overrides.Writable) :
    (∃ text, (session.answer (.render overrides)).2 = .ok (.text text) ∧
      (session.answer (.renderResult overrides)).2 = .ok (.result ⟨text, none⟩)) ∨
    ∃ fault, (session.answer (.render overrides)).2 = .error fault ∧
      (session.answer (.renderResult overrides)).2 = .ok (.result ⟨[], some fault.message⟩) := by
  rw [(faithful.answer _).2, (faithful.answer _).2, Document.answer, Document.answer]
  have fails := Document.reportable_renderWith parsed writable template.policy
  cases rendered : template.document.renderWith template.policy overrides with
  | ok text => exact .inl ⟨text, rfl, rfl⟩
  | error fault =>
      obtain ⟨failure, rfl, shown⟩ := fails fault rendered
      refine .inr ⟨.failure failure, rfl, ?_⟩
      dsimp only [RenderFault.message]
      rw [if_pos shown, if_pos shown]

/-- A source with one number. -/
def countSource : String :=
  "\x7b\x7b n : number \x7d\x7d"

/-- The document that it is. -/
def countDocument : Document :=
  ⟨countSource, [.placeholder (.editable "n" (some .number) none none) 0 16]⟩

/-- A session of it. -/
def countSession : Session :=
  start ⟨countDocument, Settings.initial.policy⟩ Settings.initial

/-- An override of the number. -/
def countOverrides (datum : Datum) : OverrideSource :=
  .data (Bindings.ofList [("n", datum)])

theorem parse_countSource : Document.parse countSource = .ok countDocument := by
  with_unfolding_all rfl

theorem countSession_reports :
    Document.parse countSource = .ok countDocument ∧
      (countOverrides (.text "many")).Writable ∧
      ((∃ text, (countSession.answer (.render (countOverrides (.text "many")))).2 =
          .ok (.text text) ∧
        (countSession.answer (.renderResult (countOverrides (.text "many")))).2 =
          .ok (.result ⟨text, none⟩)) ∨
      ∃ fault, (countSession.answer (.render (countOverrides (.text "many")))).2 = .error fault ∧
        (countSession.answer (.renderResult (countOverrides (.text "many")))).2 =
          .ok (.result ⟨[], some fault.message⟩)) := by
  have writable : (countOverrides (.text "many")).Writable := by
    rintro _ ⟨⟩ name datum found
    have listed : (name, datum) ∈ [("n", Datum.text "many")] := Bindings.find?_eq_some_iff.mp found
    cases List.mem_singleton.mp listed
    rfl
  exact ⟨parse_countSource, writable,
    renderResult_reports parse_countSource (.start _ Settings.initial) writable⟩

/-- The override is the value of the variable, however many digits it has. -/
theorem resolve_countDocument (number : Int) :
    countDocument.resolve Settings.initial.policy (countOverrides (.integer number)) =
      .ok (Bindings.ofList [("n", .number (.integer number))]) := by
  with_unfolding_all rfl

/-- The first number with too many digits is resolved like any other, but neither put out nor
reported. -/
theorem countSession_raises :
    Document.parse countSource = .ok countDocument ∧
      (countSession.answer
        (.renderResult (countOverrides (.integer (tenPow Digits.limit))))).2 =
          .error .tooManyDigits := by
  refine ⟨parse_countSource, ?_⟩
  have faithful : Faithful ⟨countDocument, Settings.initial.policy⟩ countSession := .start _ _
  have found (number : Int) :
      (Bindings.ofList [("n", Value.number (.integer number))]).find? "n" =
        some (.number (.integer number)) := rfl
  have fails : (Bindings.ofList [("n", Value.number (.integer (tenPow Digits.limit)))]).renderName
      "n" = .error .tooManyDigits := by
    simp only [Bindings.renderName, found, Value.writable, Number.writable,
      Digits.fits_tenPow_limit]
    rfl
  rw [(faithful.answer _).2, Document.answer, Document.renderWith, resolve_countDocument]
  simp only [Document.render, countDocument, List.mapM_cons, Node.render, Expression.emitted?,
    fails]
  rfl

end Session

end EditableTemplate
