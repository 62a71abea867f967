import EditableTemplate.Override.Text

/-!
# Assignments

Overrides on a command line are assignments, each a name, an equals sign and a text
(`Assignments.read`). A declared variable takes its text as one of its kind, and any other name
keeps its text, so that the policy on unknown overrides applies to it (`Assignments.build`).
Assignments win over the overrides they are added to.
-/

namespace EditableTemplate

/-- The texts assigned to names. -/
abbrev Assignments := Bindings String

/-- An item that assigns nothing: it has no equals sign or no name. -/
structure AssignmentFault where
  /-- The item. -/
  item : String
  deriving DecidableEq, Repr

/-- The fault in words. -/
def AssignmentFault.message (fault : AssignmentFault) : String :=
  s!"expected name=value, got '{fault.item}'"

namespace Assignments

/-- What stands before the first equals sign of a text, and what follows it. -/
def split? : List Char → Option (List Char × List Char)
  | [] => none
  | c :: rest =>
    if c = '=' then some ([], rest)
    else (split? rest).map fun (name, text) => (c :: name, text)

/-- The name and the text of an assignment. Blank characters around the name do not matter. -/
def readItem (item : String) : Except AssignmentFault (String × String) :=
  match split? item.toList with
  | none => .error ⟨item⟩
  | some (name, text) =>
    match Text.trim name with
    | [] => .error ⟨item⟩
    | trimmed => .ok (String.ofList trimmed, String.ofList text)

/-- The assignments that items make; a later one to the same name replaces the text. -/
def read (items : List String) : Except AssignmentFault Assignments :=
  (items.mapM readItem).map Bindings.ofList

/-- The kinds of the variables of a catalogue. -/
def kinds (catalogue : Catalogue) : Bindings Kind :=
  Bindings.ofList (catalogue.map fun entry => (entry.name, entry.kind))

/-- The datum that an assignment to a name gives. -/
def datum (kinds : Bindings Kind) (name text : String) : Except Failure Datum :=
  match kinds.find? name with
  | some kind => (Value.readText name text kind).map .typed
  | none => .ok (.text text)

/-- Overrides after the assignments are added to them. -/
def build (catalogue : Catalogue) (assignments : Assignments) (base : Bindings Datum) :
    Except Failure (Bindings Datum) :=
  assignments.entries.foldlM (fun overrides (name, text) =>
    (datum (kinds catalogue) name text).map (overrides.put name)) base

end Assignments

end EditableTemplate
