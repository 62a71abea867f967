import EditableTemplate.Resolution

/-!
# Rendering

Rendering a document copies its literal text, drops its declarations, and puts the value of the
variable in the place of every other placeholder. Nothing is escaped, and a value that holds half of
a surrogate pair is output as it is. Rendering fails at the first placeholder whose variable has no
value, or a value without a text; there is no partial output.
-/

namespace EditableTemplate

/-- Why there is no output. -/
inductive RenderFault
  /-- The template or its overrides fail. -/
  | failure (failure : Failure)
  /-- A whole number has too many digits to be written. -/
  | tooManyDigits

namespace RenderFault

/-- The fault in words. A failure that would show too long a number has the words for that. -/
def message : RenderFault → String
  | .failure cause => if cause.writable then cause.message else Datum.tooManyDigits
  | .tooManyDigits => Datum.tooManyDigits

end RenderFault

/-- The variable whose value a placeholder emits. -/
def Expression.emitted? : Expression → Option String
  | .declaration _ _ _ => none
  | .editable name _ _ _ => some name
  | .reference name => some name

/-- The output for a variable. -/
def Bindings.renderName (values : Bindings Value) (name : String) :
    Except RenderFault CodePoints :=
  match values.find? name with
  | none => .error (.failure (.unresolved name))
  | some value => if value.writable then .ok value.rendered else .error .tooManyDigits

/-- The output for a node. -/
def Node.render (values : Bindings Value) : Node → Except RenderFault CodePoints
  | .text content _ => .ok content
  | .placeholder expression _ _ =>
    match expression.emitted? with
    | none => .ok []
    | some name => values.renderName name

namespace Document

/-- The output of a document with given values. -/
def render (document : Document) (values : Bindings Value) : Except RenderFault CodePoints := do
  let parts ← document.nodes.mapM (Node.render values)
  pure parts.flatten

/-- The values of the variables of a document. -/
def resolve (policy : Policy) (document : Document) (overrides : OverrideSource) :
    Except Failure (Bindings Value) := do
  let catalogue ← Catalogue.collect policy.merge document
  Resolution.resolve policy.unknown catalogue overrides

/-- The output of a document under overrides. -/
def renderWith (policy : Policy) (document : Document) (overrides : OverrideSource) :
    Except RenderFault CodePoints :=
  match document.resolve policy overrides with
  | .error failure => .error (.failure failure)
  | .ok values => document.render values

end Document

/-- The result of rendering as a value: the output, or the failure in words. -/
structure RenderResult where
  /-- The output; empty on failure. -/
  text : CodePoints
  /-- The failure in words, if there is one. -/
  error : Option String
  deriving DecidableEq, Repr

namespace RenderResult

/-- Whether rendering succeeded. -/
def success (result : RenderResult) : Bool :=
  result.error.isNone

/-- The result of an attempt to render. A failure is reported if it has words; a number without a
text is no failure of the template and is passed on. -/
def ofAttempt : Except RenderFault CodePoints → Except RenderFault RenderResult
  | .ok text => .ok ⟨text, none⟩
  | .error .tooManyDigits => .error .tooManyDigits
  | .error (.failure failure) =>
    if failure.writable then .ok ⟨[], some failure.message⟩ else .error .tooManyDigits

end RenderResult

end EditableTemplate
