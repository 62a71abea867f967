import EditableTemplate.Session
import Mathlib.Tactic.Common

/-!
# Sessions answer as their documents do

A document alone has an answer to every request, from the policies that hold for it
(`Document.answer`). A session has a state: a catalogue that it may have collected, and settings
that change. Nothing of that can be seen in its answers. The catalogue that it keeps is the one that
collecting would give (`Session.Faithful`), every request leaves it so, whether it succeeds or fails
(`Session.Faithful.answer`), and so the answers to a row of requests are those of the document
(`Session.answers_eq_map_answer`).
-/

namespace EditableTemplate

/-- The answer to a request that a document gives without a session, from what collecting, resolving
and rendering give. A result has the output and no failure, or no output and the failure in words;
a number that can not be written is passed on. -/
def Document.answer (policy : Policy) (document : Document) :
    Request → Except RenderFault Answer
  | .variables =>
    ((Catalogue.collect policy.merge document).map .variables).mapError .failure
  | .records =>
    ((Catalogue.collect policy.merge document).map fun catalogue =>
      Answer.records (catalogue.map Entry.record)).mapError .failure
  | .clearVariables =>
    ((Catalogue.collect policy.merge document).map fun catalogue =>
      Answer.count catalogue.length).mapError .failure
  | .resolve overrides =>
    ((document.resolve policy overrides).map .values).mapError .failure
  | .render overrides => (document.renderWith policy overrides).map .text
  | .renderResult overrides =>
    match document.renderWith policy overrides with
    | .ok text => .ok (.result ⟨text, none⟩)
    | .error (.failure failure) =>
      if failure.writable then .ok (.result ⟨[], some failure.message⟩)
      else .error .tooManyDigits
    | .error .tooManyDigits => .error .tooManyDigits
  | .configure _ => .ok .done

namespace Session

/-- The answers to a row of requests. -/
def answers (session : Session) : List Request → List (Except RenderFault Answer)
  | [] => []
  | request :: rest => (session.answer request).2 :: (session.answer request).1.answers rest

variable {template : Template} {session : Session}

/-- What a session answers of an outcome is the outcome, with its failure as one of rendering. -/
theorem lift_eq_mapError {α : Type} (answer : α → Answer) {attempt outcome : Except Failure α}
    (same : attempt = outcome) : lift answer attempt = (outcome.map answer).mapError .failure := by
  subst same
  cases attempt <;> rfl

/-- A session works on a template, and the catalogue that it keeps, if any, is that of it. -/
structure Faithful (template : Template) (session : Session) : Prop where
  same : session.template = template
  kept : ∀ catalogue, session.collected = some catalogue →
    Catalogue.collect template.policy.merge template.document = .ok catalogue

namespace Faithful

/-- A session starts faithful to its template. -/
theorem start (template : Template) (settings : Settings) :
    Faithful template (Session.start template settings) where
  same := rfl
  kept := nofun

/-- The catalogue is the same whether it is kept, collected now, or can not be collected. -/
theorem catalogue (faithful : Faithful template session) :
    Faithful template session.catalogue.1 ∧
      session.catalogue.2 = Catalogue.collect template.policy.merge template.document := by
  obtain ⟨rfl, kept⟩ := faithful
  unfold Session.catalogue
  cases collected : session.collected with
  | some catalogue =>
      refine ⟨⟨rfl, kept⟩, ?_⟩
      exact (kept catalogue collected).symm
  | none =>
      cases outcome : Catalogue.collect session.template.policy.merge session.template.document with
      | error failure => exact ⟨⟨rfl, kept⟩, rfl⟩
      | ok catalogue =>
          refine ⟨⟨rfl, ?_⟩, rfl⟩
          intro other stored
          obtain rfl := Option.some.inj stored
          exact outcome

/-- A faithful session resolves as the template does, and stays faithful. -/
theorem resolve (faithful : Faithful template session) (overrides : OverrideSource) :
    Faithful template (session.resolve overrides).1 ∧
      (session.resolve overrides).2 = template.document.resolve template.policy overrides := by
  obtain ⟨onward, outcome⟩ := faithful.catalogue
  refine ⟨onward, ?_⟩
  change (session.catalogue.2.bind fun entries => Resolution.resolve
    session.catalogue.1.template.policy.unknown entries overrides) = _
  rw [outcome, onward.same]
  rfl

/-- A faithful session renders as the template does, and stays faithful. -/
theorem render (faithful : Faithful template session) (overrides : OverrideSource) :
    Faithful template (session.render overrides).1 ∧
      (session.render overrides).2 = template.document.renderWith template.policy overrides := by
  obtain ⟨onward, outcome⟩ := faithful.resolve overrides
  refine ⟨onward, ?_⟩
  rw [Document.renderWith, ← outcome, ← onward.same]
  rfl

/-- **One request.** A session answers as its document does and stays faithful to it. -/
theorem answer (faithful : Faithful template session) (request : Request) :
    Faithful template (session.answer request).1 ∧
      (session.answer request).2 = template.document.answer template.policy request := by
  match request with
  | .variables =>
      obtain ⟨onward, outcome⟩ := faithful.catalogue
      exact ⟨onward, lift_eq_mapError _ outcome⟩
  | .records =>
      obtain ⟨onward, outcome⟩ := faithful.catalogue
      exact ⟨onward, lift_eq_mapError _ outcome⟩
  | .clearVariables =>
      obtain ⟨onward, outcome⟩ := faithful.catalogue
      exact ⟨onward, lift_eq_mapError _ outcome⟩
  | .resolve overrides =>
      obtain ⟨onward, outcome⟩ := faithful.resolve overrides
      exact ⟨onward, lift_eq_mapError _ outcome⟩
  | .render overrides =>
      obtain ⟨onward, outcome⟩ := faithful.render overrides
      exact ⟨onward, congrArg (Except.map Answer.text) outcome⟩
  | .renderResult overrides =>
      obtain ⟨onward, outcome⟩ := faithful.render overrides
      refine ⟨onward, ?_⟩
      rw [Document.answer, ← outcome]
      change (RenderResult.ofAttempt (session.render overrides).2).map Answer.result = _
      cases (session.render overrides).2 with
      | ok text => rfl
      | error fault =>
          cases fault with
          | tooManyDigits => rfl
          | failure failure =>
              -- The failure has words or not, in both alike.
              dsimp only [RenderResult.ofAttempt]
              split <;> rfl
  | .configure change => exact ⟨⟨faithful.same, faithful.kept⟩, rfl⟩

end Faithful

/-- **A row of requests.** Induction on the row, each request leaving the session faithful. -/
theorem answers_eq_map_answer (faithful : Faithful template session) (requests : List Request) :
    session.answers requests = requests.map (template.document.answer template.policy) := by
  induction requests generalizing session with
  | nil => rfl
  | cons request rest ih =>
      obtain ⟨onward, outcome⟩ := faithful.answer request
      rw [answers, outcome, ih onward, List.map_cons]

/-- **A session refines its document.** Make a template of a source under the policies of the
settings and of words that may replace them, and let a session answer any row of requests, among
them changes of the settings. The answers are those that the parsed source gives to each of them
alone, under the policies that held when the template was made. -/
theorem answers_ofText (settings : Settings) (merge unknown : String) (source : String)
    (requests : List Request) :
    (Template.ofText (settings.policy.override merge unknown) source).map
        (fun template => (Session.start template settings).answers requests) =
      (Document.parse source).map fun document =>
        requests.map (document.answer (settings.policy.override merge unknown)) := by
  unfold Template.ofText
  cases Document.parse source with
  | error failure => rfl
  | ok document => exact congrArg Except.ok (answers_eq_map_answer (.start _ settings) requests)

end Session

end EditableTemplate
