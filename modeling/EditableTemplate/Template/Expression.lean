import EditableTemplate.Datum

/-!
# Placeholder expressions

A placeholder holds one of three expressions: a declaration, which emits nothing, an editable
reference, which describes a variable and emits its value, or a bare reference to a variable
described elsewhere. A default is a literal value or the value of another variable.
-/

namespace EditableTemplate

/-- The default of a variable. -/
inductive Default
  /-- A value. -/
  | literal (value : Value)
  /-- Whatever the value of another variable is. -/
  | reference (name : String)
  deriving DecidableEq

namespace Default

/-- The variable that a default refers to. -/
def target? : Default → Option String
  | .literal _ => none
  | .reference name => some name

/-- Whether two defaults mean the same: equal values of one kind, or the same variable. -/
def agrees : Default → Default → Bool
  | .literal first, .literal second => first.agrees second
  | .reference first, .reference second => first = second
  | _, _ => false

/-- A default in a message. -/
def shown : Default → String
  | .literal value => s!"LiteralExpr(kind='literal', value={Datum.shownTyped value})"
  | .reference name => s!"VariableRef(kind='ref', name={Text.quoted name})"

/-- A default as plain data: the literal, or the name after a dollar sign. -/
def datum : Default → Datum
  | .literal value => Datum.ofValue value
  | .reference name => .text (CodePoints.ofString ("$" ++ name))

end Default

/-- What a placeholder says. -/
inductive Expression
  /-- Declares a variable and emits nothing. -/
  | declaration (name : String) (kind : Kind) (default : Option Default)
  /-- Describes a variable, as far as it says anything about it, and emits its value. -/
  | editable (name : String) (kind : Option Kind) (label : Option String)
    (default : Option Default)
  /-- Emits the value of a variable. -/
  | reference (name : String)
  deriving DecidableEq

end EditableTemplate
