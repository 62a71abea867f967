import EditableTemplate.Template.Token

/-!
# The grammar of placeholder expressions

A placeholder is read from its lexemes, whatever their positions:

* a declaration: `@`, a name, a colon and a kind, then perhaps `=` and a default;
* a bare reference: `$` and a name;
* an editable reference: a name, perhaps a colon and a kind, then any number of metadata pairs, each
  after a comma: `type` with a kind, `friendlyName` with a quoted text, or `defaultValue` with a
  default.

A default is a quoted text, a number, a truth value, or `$` and a name. Nothing may follow. A fault
is located by the count of lexemes that are left where it stands (`ParseFault`), and
`Expression.parse` turns that into a position of the text.
-/

namespace EditableTemplate

/-- A fault of the grammar and the count of lexemes from the faulty one to the end. -/
structure ParseFault where
  /-- What is wrong. -/
  fault : SyntaxFault
  /-- How many lexemes are left, the faulty one included. -/
  remaining : Nat
  deriving DecidableEq, Repr

/-- What was read and the lexemes after it, or the fault. -/
abbrev Parsed (α : Type) := Except ParseFault (α × List Lexeme)

/-- A fault at the first of the lexemes that are left, or at the end of the text. -/
def SyntaxFault.locate (fault : SyntaxFault) (left : List Lexeme) : ParseFault :=
  ⟨fault, left.length⟩

/-- A name, whose absence is the given fault. -/
def readName (absent : SyntaxFault) : List Lexeme → Parsed String
  | .name word :: rest => .ok (word, rest)
  | left => .error (absent.locate left)

/-- A mark, whose absence is the given fault. -/
def readMark (mark : Mark) (absent : SyntaxFault) : List Lexeme → Except ParseFault (List Lexeme)
  | .mark found :: rest =>
    if found = mark then .ok rest else .error (absent.locate (.mark found :: rest))
  | left => .error (absent.locate left)

/-- The word for a kind. -/
def readKind : List Lexeme → Parsed Kind
  | .name word :: rest =>
    match Kind.ofName? word with
    | some kind => .ok (kind, rest)
    | none => .error ((SyntaxFault.unknownKind word).locate (.name word :: rest))
  | left => .error (SyntaxFault.kindExpected.locate left)

/-- How much of a number literal a message shows. -/
def shownLiteralLength : Nat := 24

/-- A default. -/
def readDefault : List Lexeme → Parsed Default
  | .string text :: rest => .ok (.literal (.string text), rest)
  | .number literal :: rest =>
    match literal.value? with
    | some value => .ok (.literal (.number value), rest)
    | none =>
      let start := String.ofList (literal.text.take shownLiteralLength)
      .error ((SyntaxFault.numberOutOfRange start).locate (.number literal :: rest))
  | .boolean value :: rest => .ok (.literal (.boolean value), rest)
  | .mark .dollar :: rest =>
    (readName .nameExpectedAfterDollar rest).map fun (name, rest) => (.reference name, rest)
  | left => .error (SyntaxFault.valueExpected.locate left)

/-- The keys of metadata pairs. -/
inductive MetadataKey
  /-- The kind. -/
  | kind
  /-- The label. -/
  | label
  /-- The default. -/
  | default
  deriving DecidableEq, Repr

namespace MetadataKey

/-- All keys. -/
def all : List MetadataKey := [.kind, .label, .default]

/-- The word for a key. -/
def name : MetadataKey → String
  | .kind => "type"
  | .label => "friendlyName"
  | .default => "defaultValue"

/-- The key that a word names. -/
def ofName? (word : String) : Option MetadataKey :=
  all.find? (·.name = word)

end MetadataKey

/-- What an editable reference says about its variable. -/
structure Description where
  /-- The kind, from the colon after the name or from a pair. -/
  kind : Option Kind
  /-- The label. -/
  label : Option String
  /-- The default. -/
  default : Option Default
  /-- The keys of the pairs read so far. -/
  keys : List MetadataKey
  deriving DecidableEq

/-- The key of a metadata pair: a known one that no earlier pair has. -/
def readKey (seen : List MetadataKey) : List Lexeme → Parsed MetadataKey
  | .name word :: rest =>
    match MetadataKey.ofName? word with
    | none => .error ((SyntaxFault.unknownKey word).locate (.name word :: rest))
    | some key =>
      if key ∈ seen then .error ((SyntaxFault.duplicateKey word).locate (.name word :: rest))
      else .ok (key, rest)
  | left => .error (SyntaxFault.keyExpected.locate left)

/-- The kind of a metadata pair, which must be the one given before if there is one. -/
def readAgreeingKind (name : String) (given : Option Kind) (left : List Lexeme) : Parsed Kind :=
  match readKind left with
  | .error fault => .error fault
  | .ok (kind, rest) =>
    match given with
    | none => .ok (kind, rest)
    | some first =>
      if first = kind then .ok (kind, rest)
      else .error ((SyntaxFault.conflictingKinds first kind name).locate left)

/-- A label. -/
def readLabel : List Lexeme → Parsed String
  | .string text :: rest => .ok (text, rest)
  | left => .error (SyntaxFault.labelExpected.locate left)

/-- What a metadata pair with a given key says, added to the description. -/
def readContent (name : String) (description : Description) (key : MetadataKey)
    (left : List Lexeme) : Parsed Description :=
  let description := { description with keys := key :: description.keys }
  match key with
  | .kind => (readAgreeingKind name description.kind left).map fun (kind, rest) =>
      ({ description with kind := some kind }, rest)
  | .label => (readLabel left).map fun (label, rest) =>
      ({ description with label := some label }, rest)
  | .default => (readDefault left).map fun (default, rest) =>
      ({ description with default := some default }, rest)

/-- A metadata pair, from just after its comma, added to the description. -/
def readPair (name : String) (description : Description) (left : List Lexeme) :
    Except ParseFault (Description × List Lexeme) := do
  let (key, afterKey) ← readKey description.keys left
  let content ← readMark .colon (.colonExpectedAfterKey key.name) afterKey
  readContent name description key content

/-- A name that was read stood before what is left. -/
theorem length_readName {absent : SyntaxFault} {left rest : List Lexeme} {word : String}
    (read : readName absent left = .ok (word, rest)) : rest.length < left.length := by
  revert read
  fun_cases readName absent left <;> rintro ⟨⟩
  simp

/-- A mark that was read stood before what is left. -/
theorem length_readMark {mark : Mark} {absent : SyntaxFault} {left rest : List Lexeme}
    (read : readMark mark absent left = .ok rest) : rest.length < left.length := by
  revert read
  fun_cases readMark mark absent left <;> rintro ⟨⟩
  simp

/-- A kind that was read stood before what is left. -/
theorem length_readKind {left rest : List Lexeme} {kind : Kind}
    (read : readKind left = .ok (kind, rest)) : rest.length < left.length := by
  revert read
  fun_cases readKind left <;> rintro ⟨⟩
  simp

/-- A key that was read stood before what is left. -/
theorem length_readKey {seen : List MetadataKey} {left rest : List Lexeme} {key : MetadataKey}
    (read : readKey seen left = .ok (key, rest)) : rest.length < left.length := by
  revert read
  fun_cases readKey seen left <;> rintro ⟨⟩
  simp

/-- A kind that was read and agrees stood before what is left. -/
theorem length_readAgreeingKind {name : String} {given : Option Kind} {left rest : List Lexeme}
    {kind : Kind} (read : readAgreeingKind name given left = .ok (kind, rest)) :
    rest.length < left.length := by
  revert read
  fun_cases readAgreeingKind name given left <;> rintro ⟨⟩ <;>
    exact length_readKind (by assumption)

/-- A label that was read stood before what is left. -/
theorem length_readLabel {left rest : List Lexeme} {label : String}
    (read : readLabel left = .ok (label, rest)) : rest.length < left.length := by
  revert read
  fun_cases readLabel left <;> rintro ⟨⟩
  simp

/-- A default that was read stood before what is left. -/
theorem length_readDefault {left rest : List Lexeme} {default : Default}
    (read : readDefault left = .ok (default, rest)) : rest.length < left.length := by
  revert read
  fun_cases readDefault left with
  | case1 => rintro ⟨⟩; simp
  | case2 => rintro ⟨⟩; simp
  | case3 => rintro ⟨⟩
  | case4 => rintro ⟨⟩; simp
  | case5 tail =>
    cases found : readName .nameExpectedAfterDollar tail with
    | error fault => rintro ⟨⟩
    | ok pair =>
      rintro ⟨⟩
      have := length_readName found
      simp only [List.length_cons]
      omega
  | case6 => rintro ⟨⟩

/-- The content of a metadata pair stood before what is left. -/
theorem length_readContent {name : String} {description result : Description} {key : MetadataKey}
    {left rest : List Lexeme}
    (read : readContent name description key left = .ok (result, rest)) :
    rest.length < left.length := by
  revert read
  cases key with
  | kind =>
    simp only [readContent]
    cases found : readAgreeingKind name description.kind left with
    | error fault => rintro ⟨⟩
    | ok pair => rintro ⟨⟩; exact length_readAgreeingKind found
  | label =>
    simp only [readContent]
    cases found : readLabel left with
    | error fault => rintro ⟨⟩
    | ok pair => rintro ⟨⟩; exact length_readLabel found
  | default =>
    simp only [readContent]
    cases found : readDefault left with
    | error fault => rintro ⟨⟩
    | ok pair => rintro ⟨⟩; exact length_readDefault found

/-- A metadata pair that was read stood before what is left. -/
theorem length_readPair {name : String} {description result : Description}
    {left rest : List Lexeme} (read : readPair name description left = .ok (result, rest)) :
    rest.length < left.length := by
  revert read
  unfold readPair
  cases foundKey : readKey description.keys left with
  | error fault => rintro ⟨⟩
  | ok pair =>
    obtain ⟨key, afterKey⟩ := pair
    cases foundMark : readMark .colon (.colonExpectedAfterKey key.name) afterKey with
    | error fault => simp [foundMark, bind, Except.bind]
    | ok content =>
      simp only [bind, Except.bind, foundMark]
      intro read
      have := length_readKey foundKey
      have := length_readMark foundMark
      have := length_readContent read
      omega

/-- The metadata pairs after the name and the kind of an editable reference. -/
def readPairs (name : String) (description : Description) (left : List Lexeme) :
    Except ParseFault (Description × List Lexeme) :=
  match left with
  | .mark .comma :: rest =>
    match _found : readPair name description rest with
    | .error fault => .error fault
    | .ok (extended, after) => readPairs name extended after
  | left => .ok (description, left)
termination_by left.length
decreasing_by
  have := length_readPair _found
  simp only [List.length_cons]
  omega

/-- What follows an optional mark, if the mark stands there. -/
def afterMark? (mark : Mark) : List Lexeme → Option (List Lexeme)
  | .mark found :: rest => if found = mark then some rest else none
  | _ => none

/-- A declaration, from just after its mark. -/
def readDeclaration (left : List Lexeme) : Except ParseFault (Expression × List Lexeme) := do
  let (name, afterName) ← readName .nameExpectedAfterAt left
  let afterColon ← readMark .colon (.colonExpectedAfterName name) afterName
  let (kind, afterKind) ← readKind afterColon
  match afterMark? .equals afterKind with
  | none => pure (.declaration name kind none, afterKind)
  | some rest =>
    let (default, rest) ← readDefault rest
    pure (.declaration name kind (some default), rest)

/-- A bare reference, from just after its mark. -/
def readReference (left : List Lexeme) : Except ParseFault (Expression × List Lexeme) := do
  let (name, rest) ← readName .nameExpectedAfterDollar left
  if rest.isEmpty then pure (.reference name, [])
  else throw ((SyntaxFault.metadataOnReference name).locate rest)

/-- The kind after the name of an editable reference, if there is one. -/
def readOptionalKind (left : List Lexeme) : Except ParseFault (Option Kind × List Lexeme) :=
  match afterMark? .colon left with
  | none => .ok (none, left)
  | some rest => (readKind rest).map fun (kind, rest) => (some kind, rest)

/-- An editable reference. -/
def readEditable (left : List Lexeme) : Except ParseFault (Expression × List Lexeme) := do
  let (name, afterName) ← readName .nameExpected left
  let (kind, afterKind) ← readOptionalKind afterName
  let (description, rest) ← readPairs name ⟨kind, none, none, []⟩ afterKind
  pure (.editable name description.kind description.label description.default, rest)

/-- An expression at the start of a row of lexemes: its first lexeme decides its form. -/
def readExpression : List Lexeme → Except ParseFault (Expression × List Lexeme)
  | .mark .atSign :: rest => readDeclaration rest
  | .mark .dollar :: rest => readReference rest
  | left => readEditable left

/-- The expression that a row of lexemes is. -/
def Expression.ofLexemes (lexemes : List Lexeme) : Except ParseFault Expression := do
  match ← readExpression lexemes with
  | (expression, []) => pure expression
  | (_, next :: rest) => throw ((SyntaxFault.unexpectedToken next.text).locate (next :: rest))

/-- The expression that a placeholder holds, given its content and the position of that. -/
def Expression.parse (content : String) (position : Int) : Except Failure Expression := do
  let row ← TokenRow.tokenize content position
  if row.tokens.isEmpty then throw (.malformed .emptyPlaceholder position)
  else match Expression.ofLexemes row.lexemes with
    | .ok expression => pure expression
    | .error fault => throw (.malformed fault.fault (row.positionFromEnd fault.remaining))

end EditableTemplate
