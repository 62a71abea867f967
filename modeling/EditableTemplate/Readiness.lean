import EditableTemplate.Resolution

/-!
# Readiness

A document is ready if all of its variables have values without any overrides. If it is not, then
since some have neither a default nor an override, all variables without a default are missing:
each of them needs an override before the document can be rendered.
-/

namespace EditableTemplate

/-- Whether a document renders with its defaults. -/
inductive Readiness
  /-- It does; the count of its variables. -/
  | ready (count : Nat)
  /-- It does not; the variables that need an override. -/
  | missing (names : List String)
  deriving DecidableEq, Repr

namespace Catalogue

/-- The variables without a default, in the order of the catalogue. -/
def withoutDefault (catalogue : Catalogue) : List String :=
  (catalogue.filter (·.default.isNone)).map Entry.name

/-- Whether the variables of a catalogue have values without overrides. A failure that is not for
want of a value is passed on. -/
def readiness (policy : UnknownPolicy) (catalogue : Catalogue) : Except Failure Readiness :=
  match Resolution.resolve policy catalogue .none with
  | .ok _ => .ok (.ready catalogue.length)
  | .error (.unresolved name) =>
    match withoutDefault catalogue with
    | [] => .ok (.missing [name])
    | names => .ok (.missing names)
  | .error failure => .error failure

end Catalogue

/-- Whether a document renders with its defaults. -/
def Document.readiness (policy : Policy) (document : Document) : Except Failure Readiness := do
  (← Catalogue.collect policy.merge document).readiness policy.unknown

end EditableTemplate
