import EditableTemplate.Template.Expression

/-!
# Entries of the catalogue

An entry describes one editable variable of a template, as an editor shows it. `Entry.record` is
the same as plain data.
-/

namespace EditableTemplate

/-- An editable variable. -/
structure Entry where
  /-- The name of the variable. -/
  name : String
  /-- Its kind, declared or inferred. -/
  kind : Kind
  /-- Its label, if any placeholder gives one. -/
  label : Option String
  /-- Its default, if any placeholder gives one. -/
  default : Option Default
  /-- The offset of the placeholder that first mentions it. -/
  offset : Nat
  deriving DecidableEq

namespace Entry

/-- The default as plain data; nothing without one. -/
def defaultDatum (entry : Entry) : Datum :=
  match entry.default with
  | none => .none
  | some default => default.datum

/-- The label as plain data; nothing without one. -/
def labelDatum (entry : Entry) : Datum :=
  match entry.label with
  | none => .none
  | some label => .text label

/-- The entry as plain data. -/
def record (entry : Entry) : Datum :=
  .dict [("name", .text entry.name), ("type", .text entry.kind.name),
    ("friendlyName", entry.labelDatum), ("default", entry.defaultDatum)]

end Entry

end EditableTemplate
