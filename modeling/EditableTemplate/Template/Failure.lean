import EditableTemplate.Template.Expression

/-!
# Failures

Every way in which a template and its overrides can fail, as causes: what is wrong and where
(`Failure`), with the wording in one place (`Failure.message`). A malformed placeholder has a
`SyntaxFault`. `Failure.stages` tells at which stages of the work a failure can arise.
-/

namespace EditableTemplate

/-- What can be wrong with the text of a placeholder. -/
inductive SyntaxFault
  /-- The placeholder is not closed. -/
  | unterminatedPlaceholder
  /-- Another placeholder is opened within it. -/
  | nestedPlaceholder
  /-- A quoted text is not closed. -/
  | unterminatedString
  /-- A character that starts no token. -/
  | unexpectedCharacter (c : Char)
  /-- The placeholder holds nothing. -/
  | emptyPlaceholder
  /-- Something stands where the expression has ended. -/
  | unexpectedToken (text : String)
  /-- An editable reference starts without a name. -/
  | nameExpected
  /-- A declaration has no name. -/
  | nameExpectedAfterAt
  /-- A reference has no name. -/
  | nameExpectedAfterDollar
  /-- A declared name has no colon. -/
  | colonExpectedAfterName (name : String)
  /-- A metadata key has no colon. -/
  | colonExpectedAfterKey (key : String)
  /-- A comma has no metadata key. -/
  | keyExpected
  /-- A word is no metadata key. -/
  | unknownKey (word : String)
  /-- A metadata key stands a second time. -/
  | duplicateKey (key : String)
  /-- A colon has no kind. -/
  | kindExpected
  /-- A word is no kind. -/
  | unknownKind (word : String)
  /-- A variable is given two kinds. -/
  | conflictingKinds (first second : Kind) (name : String)
  /-- A label is not a quoted text. -/
  | labelExpected
  /-- A default is none of the forms of one. -/
  | valueExpected
  /-- A number literal stands for no number in range; its first characters. -/
  | numberOutOfRange (start : String)
  /-- Something stands after the name of a bare reference. -/
  | metadataOnReference (name : String)
  deriving DecidableEq, Repr

/-- The words for kinds, as messages list them. -/
def kindNames : String :=
  String.intercalate ", " (Kind.all.map Kind.name)

/-- The metadata keys, as messages list them. -/
def keyNames : String :=
  "type, friendlyName, defaultValue"

/-- The fault in words. -/
def SyntaxFault.message : SyntaxFault → String
  | .unterminatedPlaceholder => "Unterminated placeholder: missing '\x7d\x7d'"
  | .nestedPlaceholder => "Nested '\x7b\x7b' inside placeholder"
  | .unterminatedString => "Unterminated string literal"
  | .unexpectedCharacter c => s!"Unexpected character '{c}'"
  | .emptyPlaceholder => "Empty placeholder"
  | .unexpectedToken text => s!"Unexpected token '{text}'"
  | .nameExpected => "Expected variable name"
  | .nameExpectedAfterAt => "Expected variable name after '@'"
  | .nameExpectedAfterDollar => "Expected variable name after '$'"
  | .colonExpectedAfterName name => s!"Expected ':' and a type after '{name}'"
  | .colonExpectedAfterKey key => s!"Expected ':' after '{key}'"
  | .keyExpected => "Expected metadata key after ','"
  | .unknownKey word => s!"Unknown metadata key '{word}'; expected one of {keyNames}"
  | .duplicateKey key => s!"Duplicate metadata key '{key}'"
  | .kindExpected => s!"Expected a type name ({kindNames})"
  | .unknownKind word => s!"Unknown type '{word}'; expected one of {kindNames}"
  | .conflictingKinds first second name =>
    s!"Conflicting types '{first.name}' and '{second.name}' for '{name}'"
  | .labelExpected => "friendlyName must be a quoted string"
  | .valueExpected => "Expected a value: quoted string, number, true/false or $name"
  | .numberOutOfRange start => s!"Number literal '{start}' is out of range"
  | .metadataOnReference name => s!"Value reference '${name}' takes no metadata"

/-- What was found where a value of a kind was wanted. -/
inductive Found
  /-- A value of a kind. -/
  | kind (kind : Kind)
  /-- A number that is not finite. -/
  | notFinite
  /-- A datum that no variable can hold. -/
  | unsupported (sort : String)
  deriving DecidableEq

/-- The word for what was found. -/
def Found.name : Found → String
  | .kind actual => actual.name
  | .notFinite => "non-finite number"
  | .unsupported sort => sort

/-- Why a template or its overrides fail. -/
inductive Failure
  /-- A placeholder is malformed at an offset. -/
  | malformed (fault : SyntaxFault) (offset : Int)
  /-- Two placeholders give a variable different kinds. -/
  | kindConflict (name : String) (existing added : Kind)
  /-- Two placeholders give a variable different labels. -/
  | labelConflict (name existing added : String)
  /-- Two placeholders give a variable different defaults. -/
  | defaultConflict (name : String) (existing added : Default)
  /-- A value does not belong to the kind of its variable. -/
  | mismatch (name : String) (expected : Kind) (found : Found) (value : Datum)
  /-- Defaults refer to each other in a circle. -/
  | cycle (members : List String)
  /-- A variable has neither an override nor a default. -/
  | unresolved (name : String)
  /-- A reference or an override names no variable; the offset of its placeholder. -/
  | undeclared (name : String) (offset : Option Nat)
  /-- The overrides are not a form of overrides. -/
  | invalidOverrides (sort : String)

/-- The stages of the work after parsing. -/
inductive Stage
  /-- Collecting the catalogue of variables. -/
  | collection
  /-- Computing the values of variables. -/
  | resolution
  /-- Producing the output. -/
  | rendering
  deriving DecidableEq, Repr

namespace Failure

/-- The stages at which a failure can arise; none if the template does not parse. -/
def stages : Failure → List Stage
  | .malformed _ _ => []
  | .kindConflict _ _ _ => [.collection]
  | .labelConflict _ _ _ => [.collection]
  | .defaultConflict _ _ _ => [.collection]
  | .mismatch _ _ _ _ => [.collection, .resolution]
  | .cycle _ => [.collection, .resolution]
  | .unresolved _ => [.resolution, .rendering]
  | .undeclared _ _ => [.collection, .resolution]
  | .invalidOverrides _ => [.resolution]

/-- The offset that a failure points at. -/
def offset? : Failure → Option Int
  | .malformed _ offset => some offset
  | .undeclared _ offset => offset.map Int.ofNat
  | _ => none

/-- The failure in words. -/
def message : Failure → String
  | .malformed fault offset => s!"{fault.message} at offset {offset}"
  | .kindConflict name existing added =>
    s!"Variable '{name}' declared as '{existing.name}' and later as '{added.name}'"
  | .labelConflict name existing added =>
    s!"Variable '{name}' has conflicting friendlyName: " ++
      s!"{Text.quoted existing} vs {Text.quoted added}"
  | .defaultConflict name existing added =>
    s!"Variable '{name}' has conflicting defaultValue: {existing.shown} vs {added.shown}"
  | .mismatch name expected found value =>
    s!"Variable '{name}' expects type '{expected.name}' but got '{found.name}' " ++
      s!"value {value.shown}"
  | .cycle members =>
    let path := String.intercalate " -> " (members ++ members.take 1)
    s!"Circular default dependency: {path}"
  | .unresolved name => s!"Variable '{name}' has no value: supply an override or a default"
  | .undeclared name none => s!"Reference to undeclared variable '{name}'"
  | .undeclared name (some offset) =>
    s!"Reference to undeclared variable '{name}' at offset {offset}"
  | .invalidOverrides sort =>
    s!"Overrides must be a mapping, BalsaParameters or AsParameters, not {sort}"

/-- Whether the failure has a text: it shows no whole number with too many digits. -/
def writable : Failure → Bool
  | .mismatch _ _ _ value => value.writable
  | .defaultConflict _ (.literal existing) (.literal added) => existing.writable && added.writable
  | .defaultConflict _ (.literal existing) _ => existing.writable
  | .defaultConflict _ _ (.literal added) => added.writable
  | _ => true

end Failure

end EditableTemplate
