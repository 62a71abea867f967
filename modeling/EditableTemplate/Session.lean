import EditableTemplate.Loading
import EditableTemplate.Rendering

/-!
# Sessions

A session works on one template for as long as needed. It collects the catalogue when it is first
wanted and keeps it (`Session.catalogue`), also across changes of the settings, since the policies
of a template are fixed when it is made. `Session.answer` answers one request.
-/

namespace EditableTemplate

/-- A change of the settings of a run. -/
inductive SettingChange
  /-- Whether nothing is reported. -/
  | quiet (value : Bool)
  /-- Whether details are printed. -/
  | detailed (value : Bool)
  /-- The word for the policy on disagreement. -/
  | merge (word : String)
  /-- The word for the policy on unknown overrides. -/
  | unknown (word : String)
  /-- The size limit. -/
  | maxTemplateBytes (value : Int)

/-- The settings after a change. -/
def Settings.change (settings : Settings) : SettingChange → Settings
  | .quiet value => { settings with quiet := value }
  | .detailed value => { settings with detailed := value }
  | .merge word =>
    { settings with policy := { settings.policy with merge := MergePolicy.ofWord word } }
  | .unknown word =>
    { settings with policy := { settings.policy with unknown := UnknownPolicy.ofWord word } }
  | .maxTemplateBytes value => { settings with maxTemplateBytes := value }

/-- The state of a session. -/
structure Session where
  /-- The template. -/
  template : Template
  /-- The settings of the run. -/
  settings : Settings
  /-- The catalogue, once it has been collected. -/
  collected : Option Catalogue

/-- What a session can be asked. -/
inductive Request
  /-- The catalogue. -/
  | variables
  /-- The catalogue as plain data. -/
  | records
  /-- To drop all entries of the list that was answered, and how many a new one has. -/
  | clearVariables
  /-- The values of the variables. -/
  | resolve (overrides : OverrideSource)
  /-- The output. -/
  | render (overrides : OverrideSource)
  /-- The output or the failure in words. -/
  | renderResult (overrides : OverrideSource)
  /-- To change a setting. -/
  | configure (change : SettingChange)

/-- What a session answers. -/
inductive Answer
  /-- Entries. -/
  | variables (catalogue : Catalogue)
  /-- Records. -/
  | records (records : List Datum)
  /-- A count of entries. -/
  | count (count : Nat)
  /-- Values. -/
  | values (values : Bindings Value)
  /-- Output. -/
  | text (text : CodePoints)
  /-- Output, or a failure in words. -/
  | result (result : RenderResult)
  /-- Nothing. -/
  | done

namespace Session

/-- A session that has not collected anything. -/
def start (template : Template) (settings : Settings) : Session :=
  ⟨template, settings, none⟩

/-- The catalogue of the template, and the session that keeps it. -/
def catalogue (session : Session) : Session × Except Failure Catalogue :=
  match session.collected with
  | some catalogue => (session, .ok catalogue)
  | none =>
    match Catalogue.collect session.template.policy.merge session.template.document with
    | .ok catalogue => ({ session with collected := some catalogue }, .ok catalogue)
    | .error failure => (session, .error failure)

/-- The values of the variables, and the session after it. -/
def resolve (session : Session) (overrides : OverrideSource) :
    Session × Except Failure (Bindings Value) :=
  let (session, catalogue) := session.catalogue
  (session, catalogue.bind fun catalogue =>
    Resolution.resolve session.template.policy.unknown catalogue overrides)

/-- The output, and the session after it. -/
def render (session : Session) (overrides : OverrideSource) :
    Session × Except RenderFault CodePoints :=
  let (session, values) := session.resolve overrides
  (session, match values with
    | .error failure => .error (.failure failure)
    | .ok values => session.template.document.render values)

/-- What an answer that can fail comes to. -/
def lift {α : Type} (answer : α → Answer) (result : Except Failure α) :
    Except RenderFault Answer :=
  match result with
  | .ok value => .ok (answer value)
  | .error failure => .error (.failure failure)

/-- The answer to a request, and the session after it. -/
def answer (session : Session) : Request → Session × Except RenderFault Answer
  | .variables =>
    let (session, catalogue) := session.catalogue
    (session, lift .variables catalogue)
  | .records =>
    let (session, catalogue) := session.catalogue
    (session, lift (fun catalogue => .records (catalogue.map Entry.record)) catalogue)
  | .clearVariables =>
    let (session, catalogue) := session.catalogue
    (session, lift (fun catalogue => .count catalogue.length) catalogue)
  | .resolve overrides =>
    let (session, values) := session.resolve overrides
    (session, lift .values values)
  | .render overrides =>
    let (session, text) := session.render overrides
    (session, text.map .text)
  | .renderResult overrides =>
    let (session, text) := session.render overrides
    (session, (RenderResult.ofAttempt text).map .result)
  | .configure change =>
    ({ session with settings := session.settings.change change }, .ok .done)

end Session

end EditableTemplate
