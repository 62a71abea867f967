import EditableTemplate.Catalogue.Draft
import EditableTemplate.Catalogue.Entry
import EditableTemplate.Dependency.Graph

/-!
# Collecting the catalogue

The catalogue of a document has one entry for each variable it mentions, in the order of the first
mentions. Collecting it makes the drafts, sees that every reference names a drafted variable, and
settles the drafts in the order of their dependencies: a variable without a kind takes that of its
default, and a default must fit the kind (`Draft.settle`). `Catalogue.collect` does it all.
-/

namespace EditableTemplate

/-- A row of entries, one for each variable. -/
abbrev Catalogue := List Entry

/-- The references among the defaults of drafts, with the offsets of the defaults. -/
def Draft.references (drafts : Bindings Draft) : List (String × Nat) :=
  drafts.values.filterMap fun draft =>
    (draft.default.bind Default.target?).map (·, draft.defaultOffset)

/-- Every bare reference, and then every default, must refer to a drafted variable. -/
def Draft.checkReferences (document : Document) (drafts : Bindings Draft) :
    Except Failure Unit :=
  match (document.references ++ references drafts).find? fun (name, _) =>
      !drafts.contains name with
  | some (name, offset) => .error (.undeclared name (some offset))
  | none => .ok ()

/-- A value as one of the kind of a variable. -/
def Value.check (name : String) (value : Value) (declared : Kind) : Except Failure Value :=
  match value.retag? declared with
  | some result => .ok result
  | none => .error (.mismatch name declared (.kind value.kind) (Datum.ofValue value))

namespace Draft

/-- The kind and the default of a literal default. -/
def settleLiteral (name : String) (declared : Option Kind) (value : Value) :
    Except Failure (Kind × Option Default) :=
  let kind := declared.getD value.kind
  (value.check name kind).map fun value => (kind, some (.literal value))

/-- The kind and the default of a reference to a variable that has an entry. -/
def settleReference (name : String) (declared : Option Kind) (target : Entry) :
    Except Failure (Kind × Option Default) :=
  let kind := declared.getD target.kind
  if kind.accepts target.kind then .ok (kind, some (.reference target.name))
  else .error (.mismatch name kind (.kind target.kind) (.text ("$" ++ target.name)))

/-- The kind and the default of a draft, given the entries that it depends on. -/
def settleDefault (name : String) (draft : Draft) (entries : Bindings Entry) :
    Except Failure (Kind × Option Default) :=
  match draft.default with
  | none => .ok (draft.kind.getD .string, none)
  | some (.literal value) => settleLiteral name draft.kind value
  | some (.reference target) =>
    match entries.find? target with
    | some entry => settleReference name draft.kind entry
    | none => .error (.undeclared target (some draft.defaultOffset))

/-- The entry of a draft, given the entries that it depends on. -/
def settle (name : String) (draft : Draft) (entries : Bindings Entry) : Except Failure Entry := do
  let (kind, default) ← settleDefault name draft entries
  pure ⟨name, kind, draft.label, default, draft.offset⟩

/-- The entries after one more draft is settled. -/
def settleNext (drafts : Bindings Draft) (entries : Bindings Entry) (name : String) :
    Except Failure (Bindings Entry) :=
  match drafts.find? name with
  | none => .ok entries
  | some draft => (settle name draft entries).map (entries.put name)

/-- The dependencies between drafts. -/
def graph (drafts : Bindings Draft) : DependencyGraph :=
  DependencyGraph.ofDefaults (drafts.map Draft.default)

end Draft

namespace Catalogue

/-- The catalogue of a document. -/
def collect (policy : MergePolicy) (document : Document) : Except Failure Catalogue := do
  let drafts ← Draft.gather policy document.mentions
  Draft.checkReferences document drafts
  let order ← (Draft.graph drafts).schedule
  let entries ← order.foldlM (Draft.settleNext drafts) Bindings.empty
  pure (drafts.names.filterMap entries.find?)

end Catalogue

end EditableTemplate
