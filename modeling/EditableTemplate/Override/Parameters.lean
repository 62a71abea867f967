import EditableTemplate.Datum

/-!
# Typed overrides

`Parameters` are overrides made one at a time, each of a stated kind, before any template is known.
A color must be the text of one, and is kept without the blank characters around it. Setting a name
again replaces its value and keeps its place.
-/

namespace EditableTemplate

/-- Overrides whose values have kinds. -/
structure Parameters where
  /-- The values. -/
  values : Bindings Value

/-- Why a value is refused. -/
inductive ParameterFault
  /-- The datum is no value of the kind. -/
  | tag (fault : Datum.TagFault)
  /-- The text is not that of a color. -/
  | notColor (text : CodePoints)
  /-- The datum is no text, where the text of a color is wanted. -/
  | notText (sort : String)

namespace Parameters

/-- No overrides. -/
def empty : Parameters := ⟨Bindings.empty⟩

/-- The value of a kind that a datum stands for. -/
def value (kind : Kind) (datum : Datum) : Except ParameterFault Value :=
  match kind, datum with
  | .color, .text text =>
    match Color.ofText? text with
    | some color => .ok (.color color)
    | none => .error (.notColor text)
  | .color, datum => .error (.notText datum.sort)
  | kind, datum => (datum.tag kind).mapError .tag

/-- The overrides with one more, or with another value for a name. -/
def set (parameters : Parameters) (kind : Kind) (name : String) (datum : Datum) :
    Except ParameterFault Parameters :=
  (value kind datum).map fun value => ⟨parameters.values.put name value⟩

/-- The overrides that a row of settings makes, up to the first that is refused. -/
def build (settings : List (Kind × String × Datum)) : Except ParameterFault Parameters :=
  settings.foldlM (fun parameters (kind, name, datum) => parameters.set kind name datum) empty

end Parameters

/-- The fault in words, if there are any for it. -/
def ParameterFault.message? : ParameterFault → Option String
  | .tag fault => fault.message?
  | .notColor text => some s!"'{text.replaced}' is not a valid CSS color"
  | .notText sort => some s!"'{sort}' object has no attribute 'strip'"

end EditableTemplate
