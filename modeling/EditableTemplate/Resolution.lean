import EditableTemplate.Catalogue.Collect
import EditableTemplate.Override.Source

/-!
# Resolving variables

The value of a variable is its override if there is one, else its literal default, else the value
of the variable that its default refers to; in each case it must fit the kind of the variable.
`Resolution.resolve` computes the values of a catalogue in the order of the dependencies, overrides
notwithstanding, and answers them in that order.
-/

namespace EditableTemplate

namespace Datum

/-- What a datum is found to be if it has no natural kind. -/
def WrapFault.found : WrapFault → Found
  | .notFinite _ => .notFinite
  | .unsupported sort => .unsupported sort

/-- An override as a value of the kind of a variable. -/
def check (name : String) (datum : Datum) (declared : Kind) : Except Failure Value :=
  match datum.wrap with
  | .ok value => value.check name declared
  | .error fault => .error (.mismatch name declared fault.found datum)

end Datum

namespace Resolution

/-- The entries of a catalogue by name; of entries with one name the last counts. -/
def index (catalogue : Catalogue) : Bindings Entry :=
  Bindings.ofList (catalogue.map fun entry => (entry.name, entry))

/-- The overrides for declared variables; under the erring policy there must be no others. -/
def supplied (policy : UnknownPolicy) (index : Bindings Entry) (overrides : Bindings Datum) :
    Except Failure (Bindings Datum) :=
  match policy, overrides.names.find? fun name => !index.contains name with
  | .error, some name => .error (.undeclared name none)
  | _, _ => .ok (overrides.filter index.contains)

/-- The value of a variable, given the values of those that it depends on. -/
def value (overrides : Bindings Datum) (values : Bindings Value) (entry : Entry) :
    Except Failure Value :=
  match overrides.find? entry.name, entry.default with
  | some datum, _ => datum.check entry.name entry.kind
  | none, some (.literal value) => value.check entry.name entry.kind
  | none, some (.reference target) =>
    match values.find? target with
    | some value => value.check entry.name entry.kind
    | none => .error (.undeclared target none)
  | none, none => .error (.unresolved entry.name)

/-- The values after one more variable is resolved. -/
def resolveNext (index : Bindings Entry) (overrides : Bindings Datum) (values : Bindings Value)
    (name : String) : Except Failure (Bindings Value) :=
  match index.find? name with
  | none => .ok values
  | some entry => (value overrides values entry).map (values.put name)

/-- The values of all variables under overrides in normal form. -/
def resolveWith (policy : UnknownPolicy) (catalogue : Catalogue) (overrides : Bindings Datum) :
    Except Failure (Bindings Value) := do
  let index := index catalogue
  let overrides ← supplied policy index overrides
  let order ← (DependencyGraph.ofDefaults (index.map Entry.default)).schedule
  order.foldlM (resolveNext index overrides) Bindings.empty

/-- The values of all variables. -/
def resolve (policy : UnknownPolicy) (catalogue : Catalogue) (overrides : OverrideSource) :
    Except Failure (Bindings Value) := do
  resolveWith policy catalogue (← overrides.normalize)

end Resolution

end EditableTemplate
