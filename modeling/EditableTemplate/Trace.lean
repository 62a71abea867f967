import EditableTemplate.Rendering
import EditableTemplate.Settings

/-!
# Reports along the way

While a template is parsed, collected, resolved and rendered, each stage reports what it has done
(`Note`). `Trace.ofRender` lists the reports of one whole run, up to the stage that fails; a run
under quiet settings reports nothing.
-/

namespace EditableTemplate

/-- A report. -/
inductive Note
  /-- A template was parsed. -/
  | parsed (nodes placeholders : Nat)
  /-- A label was passed over, since there was one already. -/
  | keptLabel (name kept ignored : String)
  /-- A default took the place of a different one. -/
  | replacedDefault (name : String) (offset : Nat)
  /-- Defaults refer to each other in a circle. -/
  | cycle (members : List String)
  /-- The catalogue was collected. -/
  | collected (count : Nat)
  /-- An override names no variable. -/
  | ignoredOverride (name : String)
  /-- The values were computed. -/
  | resolved (count overridden : Nat)
  /-- The output was produced. -/
  | rendered (nodes characters : Nat)
  /-- Rendering failed. -/
  | failed (message : String)
  deriving DecidableEq, Repr

namespace Note

/-- Names in a message. -/
def shownNames (names : List String) : String :=
  (Datum.list (names.map fun name => Datum.text (CodePoints.ofString name))).shown

/-- The report in words. -/
def message : Note → String
  | .parsed nodes placeholders =>
    s!"Parsed template: {nodes} nodes, {placeholders} placeholders"
  | .keptLabel name kept ignored =>
    s!"Keeping first friendlyName of '{name}': {Text.quoted kept} " ++
      s!"(ignoring {Text.quoted ignored})"
  | .replacedDefault name offset => s!"Later default of '{name}' at offset {offset} wins"
  | .cycle members =>
    s!"Cycle in default values: {shownNames members}"
  | .collected count => s!"Collected {count} variables"
  | .ignoredOverride name => s!"Ignoring override for undeclared variable '{name}'"
  | .resolved count overridden =>
    s!"Resolved {count} variables ({overridden} overridden)"
  | .rendered nodes characters => s!"Rendered {nodes} nodes into {characters} characters"
  | .failed message => s!"Render failed: {message}"

end Note

namespace Trace

/-- The reports of the parser. -/
def ofDocument (document : Document) : List Note :=
  [.parsed document.nodes.length document.placeholders.length]

/-- The reports when a mention is added to a draft. -/
def ofMerge (draft : Draft) (mention : Mention) : List Note :=
  (match draft.label, mention.label with
    | some kept, some ignored =>
      if kept = ignored then [] else [.keptLabel mention.name kept ignored]
    | _, _ => []) ++
  (match draft.default, mention.default with
    | some existing, some added =>
      if existing.agrees added then [] else [.replacedDefault mention.name mention.offset]
    | _, _ => [])

/-- The reports when mentions are gathered, up to the one that fails. -/
def ofMentions (policy : MergePolicy) (drafts : Bindings Draft) : List Mention → List Note
  | [] => []
  | mention :: rest =>
    match Draft.add policy drafts mention with
    | .error _ => []
    | .ok extended =>
      ((drafts.find? mention.name).map (ofMerge · mention)).getD [] ++
        ofMentions policy extended rest

/-- The report on the outcome of collecting the catalogue. -/
def ofCatalogue : Except Failure Catalogue → List Note
  | .ok catalogue => [.collected catalogue.length]
  | .error (.cycle members) => [.cycle members]
  | .error _ => []

/-- The reports when overrides for undeclared variables are dropped. -/
def ofOverrides (policy : UnknownPolicy) (catalogue : Catalogue) (overrides : Bindings Datum) :
    List Note :=
  match policy with
  | .error => []
  | .ignore =>
    let declared := catalogue.map Entry.name
    (overrides.names.filter fun name => !declared.contains name).map .ignoredOverride

/-- The reports when the variables of a catalogue are resolved. -/
def ofResolution (policy : UnknownPolicy) (catalogue : Catalogue) (overrides : OverrideSource) :
    List Note :=
  match overrides.normalize with
  | .error _ => []
  | .ok data =>
    ofOverrides policy catalogue data ++
      match Resolution.resolveWith policy catalogue data with
      | .error _ => []
      | .ok values =>
        let overridden := data.names.filter fun name => (catalogue.map Entry.name).contains name
        [.resolved values.size overridden.length]

/-- The reports on the outcome of rendering. -/
def ofOutcome (document : Document) : Except RenderFault CodePoints → List Note
  | .ok text => [.rendered document.nodes.length text.length]
  | .error .tooManyDigits => []
  | .error (.failure failure) => if failure.writable then [.failed failure.message] else []

/-- The reports of parsing a template and rendering it under overrides. -/
def ofRender (policy : Policy) (document : Document) (overrides : OverrideSource) : List Note :=
  let catalogue := Catalogue.collect policy.merge document
  ofDocument document ++
    ofMentions policy.merge Bindings.empty document.mentions ++
    ofCatalogue catalogue ++
    (match catalogue with
      | .ok catalogue => ofResolution policy.unknown catalogue overrides
      | .error _ => []) ++
    ofOutcome document (document.renderWith policy overrides)

/-- The reports that are passed on under given settings. -/
def reported (settings : Settings) (notes : List Note) : List Note :=
  if settings.quiet then [] else notes

end Trace

end EditableTemplate
