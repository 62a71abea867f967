import EditableTemplate.Override.Parameters
import EditableTemplate.Template.Failure

/-!
# Sources of overrides

Overrides come as plain data by name, as typed overrides, or from a provider of either.
`OverrideSource.normalize` brings them to one form. Of other data, nothing and a dictionary are
sources as well, and the rest is none.
-/

namespace EditableTemplate

/-- Where overrides come from. -/
inductive OverrideSource
  /-- Plain data by name. -/
  | data (overrides : Bindings Datum)
  /-- Typed overrides. -/
  | parameters (value : Parameters)
  /-- Something that provides overrides. -/
  | provider (inner : OverrideSource)
  /-- A datum of any sort. -/
  | datum (value : Datum)

namespace OverrideSource

/-- No overrides. -/
def none : OverrideSource := .data Bindings.empty

/-- The overrides of a source: a datum for each name. -/
def normalize : OverrideSource → Except Failure (Bindings Datum)
  | .data overrides => .ok overrides
  | .parameters value => .ok (value.values.map .typed)
  | .provider inner => inner.normalize
  | .datum .none => .ok Bindings.empty
  | .datum (.dict entries) => .ok (Datum.byName entries)
  | .datum value => .error (.invalidOverrides value.sort)

end OverrideSource

end EditableTemplate
