import EditableTemplate.Proofs.Template.Token
import EditableTemplate.Template.Grammar

/-!
# Writing expressions

An expression is written as a row of lexemes (`Expression.lexemes`) if its names are names and its
default is a string of characters, a whole number that is not too long, a truth value or a reference
(`Expression.HasForm`). The grammar reads the row back as the expression
(`Expression.ofLexemes_lexemes`), and so does the parser with the text of the row
(`Expression.parse_form`).
-/

namespace EditableTemplate

namespace Default

/-- The lexemes of a default. Colors and binary numbers are not written. -/
def lexemes : Default → List Lexeme
  | .literal (.string text) => [.string (String.ofList text.characters)]
  | .literal (.number (.integer number)) => [.number (.ofInt number)]
  | .literal (.boolean value) => [.boolean value]
  | .literal _ => []
  | .reference name => [.mark .dollar, .name name]

/-- A default that can be written: a string, a whole number of few enough digits, a truth value, or
a reference. -/
def HasForm : Default → Prop
  | .literal (.string text) => ∃ content : String, text = CodePoints.ofString content
  | .literal (.number (.integer number)) => Digits.fits number = true
  | .literal (.boolean _) => True
  | .literal _ => False
  | .reference name => IsName name

theorem hasForm_string (text : String) : (literal (.string text)).HasForm :=
  ⟨text, rfl⟩

end Default

/-- The lexemes of a metadata pair, with its comma. -/
def MetadataKey.pair (key : MetadataKey) (content : List Lexeme) : List Lexeme :=
  .mark .comma :: .name key.name :: .mark .colon :: content

namespace Expression

/-- The lexemes of an expression. -/
def lexemes : Expression → List Lexeme
  | .declaration name kind default =>
      [.mark .atSign, .name name, .mark .colon, .name kind.name] ++
        default.elim [] fun given => .mark .equals :: given.lexemes
  | .editable name kind label default =>
      .name name :: (kind.elim [] (fun given => [.mark .colon, .name given.name]) ++
        (label.elim [] (fun given => MetadataKey.label.pair [.string given]) ++
          default.elim [] fun given => MetadataKey.default.pair given.lexemes))
  | .reference name => [.mark .dollar, .name name]

/-- An expression that can be written. -/
def HasForm : Expression → Prop
  | .declaration name _ default => IsName name ∧ ∀ given ∈ default, given.HasForm
  | .editable name _ _ default => IsName name ∧ ∀ given ∈ default, given.HasForm
  | .reference name => IsName name

/-- An expression as it is written. -/
def form (expression : Expression) : List Char :=
  expression.lexemes.flatMap Lexeme.form

end Expression

/-! ## Reading the lexemes back -/

/-- A default is read back from its lexemes. -/
theorem readDefault_lexemes {default : Default} (written : default.HasForm)
    (rest : List Lexeme) : readDefault (default.lexemes ++ rest) = .ok (default, rest) := by
  cases default with
  | reference name => rfl
  | literal value =>
      cases value with
      | string text =>
          obtain ⟨content, rfl⟩ := written
          have same : String.ofList (CodePoints.ofString content).characters = content := by
            rw [CodePoints.ofString, CodePoints.characters_ofChars, String.ofList_toList]
          rw [Default.lexemes, same]
          rfl
      | number number =>
          cases number with
          | integer number =>
              have value := NumberLiteral.value?_ofInt written
              simp only [Default.lexemes, List.singleton_append, readDefault, value]
          | real number => exact written.elim
      | boolean value => rfl
      | color text => exact written.elim

theorem readKind_name (kind : Kind) (rest : List Lexeme) :
    readKind (.name kind.name :: rest) = .ok (kind, rest) := by
  simp only [readKind, Kind.ofName?_name]

/-- A pair with a new key is read up to its content. -/
theorem readPair_name {name : String} {description : Description} {key : MetadataKey}
    (fresh : key ∉ description.keys) (content : List Lexeme) :
    readPair name description (.name key.name :: .mark .colon :: content) =
      readContent name description key content := by
  have known : MetadataKey.ofName? key.name = some key := by cases key <;> decide
  have read : readKey description.keys (.name key.name :: .mark .colon :: content) =
      .ok (key, .mark .colon :: content) := by
    simp only [readKey, known, if_neg fresh]
  rw [readPair, read]
  rfl

/-- After a pair the other pairs are read. -/
theorem readPairs_pair {name : String} {description extended : Description} {key : MetadataKey}
    {content rest : List Lexeme} (fresh : key ∉ description.keys)
    (read : readContent name description key content = .ok (extended, rest)) :
    readPairs name description (key.pair content) = readPairs name extended rest := by
  have pair := (readPair_name fresh content).trans read
  rw [MetadataKey.pair, readPairs]
  split
  · rename_i failed
    rw [pair] at failed
    cases failed
  · rename_i found
    rw [pair] at found
    obtain ⟨rfl, rfl⟩ := Prod.mk.inj (Except.ok.inj found)
    rfl

theorem readPairs_nil (name : String) (description : Description) :
    readPairs name description [] = .ok (description, []) := by
  rw [readPairs]
  intro rest same
  cases same

theorem readPairs_default {name : String} {kind : Option Kind} {label : Option String}
    {default : Option Default} {keys : List MetadataKey}
    (written : ∀ given ∈ default, given.HasForm) (fresh : .default ∉ keys) :
    ∃ keys', readPairs name ⟨kind, label, none, keys⟩
        (default.elim [] fun given => MetadataKey.default.pair given.lexemes) =
      .ok (⟨kind, label, default, keys'⟩, []) := by
  cases default with
  | none => exact ⟨keys, readPairs_nil name _⟩
  | some given =>
      have read := readDefault_lexemes (written given rfl) []
      rw [List.append_nil] at read
      have content : readContent name ⟨kind, label, none, keys⟩ .default given.lexemes =
          .ok (⟨kind, label, some given, .default :: keys⟩, []) := by
        simp only [readContent, read]
        rfl
      exact ⟨.default :: keys, (readPairs_pair fresh content).trans (readPairs_nil name _)⟩

/-- A label and a default are read back from their pairs. -/
theorem readPairs_lexemes {name : String} {kind : Option Kind} {label : Option String}
    {default : Option Default} (written : ∀ given ∈ default, given.HasForm) :
    ∃ keys, readPairs name ⟨kind, none, none, []⟩
        (label.elim [] (fun given => MetadataKey.label.pair [.string given]) ++
          default.elim [] fun given => MetadataKey.default.pair given.lexemes) =
      .ok (⟨kind, label, default, keys⟩, []) := by
  cases label with
  | none => exact readPairs_default written (by simp)
  | some label =>
      have fresh : MetadataKey.default ∉ [MetadataKey.label] := by decide
      obtain ⟨keys, read⟩ := readPairs_default written fresh
      exact ⟨keys, (readPairs_pair (by simp) rfl).trans read⟩

/-- A kind that may be absent is read back, if no colon follows. -/
theorem readOptionalKind_lexemes {kind : Option Kind} {rest : List Lexeme}
    (other : afterMark? .colon rest = none) :
    readOptionalKind
        (kind.elim [] (fun given => [.mark .colon, .name given.name]) ++ rest) =
      .ok (kind, rest) := by
  cases kind with
  | none =>
      rw [Option.elim, List.nil_append, readOptionalKind, other]
  | some kind =>
      have read := readKind_name kind rest
      simp only [Option.elim, List.cons_append, List.nil_append, readOptionalKind, afterMark?,
        if_true, read]
      rfl

namespace Expression

/-- A declaration is read back from its lexemes. -/
theorem readDeclaration_lexemes {name : String} {kind : Kind} {default : Option Default}
    (written : ∀ given ∈ default, given.HasForm) :
    readDeclaration ([.name name, .mark .colon, .name kind.name] ++
        default.elim [] fun given => .mark .equals :: given.lexemes) =
      .ok (.declaration name kind default, []) := by
  rw [readDeclaration]
  change Except.bind (readKind (.name kind.name :: _)) _ = _
  rw [readKind_name]
  cases default with
  | none => rfl
  | some given =>
      have read := readDefault_lexemes (written given rfl) []
      rw [List.append_nil] at read
      change Except.bind (readDefault given.lexemes) _ = _
      rw [read]
      rfl

/-- An editable reference is read back from its lexemes. -/
theorem readEditable_lexemes {name : String} {kind : Option Kind} {label : Option String}
    {default : Option Default} (written : ∀ given ∈ default, given.HasForm) :
    readEditable (editable name kind label default).lexemes =
      .ok (.editable name kind label default, []) := by
  obtain ⟨keys, read⟩ := readPairs_lexemes written
  have other : afterMark? .colon
      (label.elim [] (fun given => MetadataKey.label.pair [.string given]) ++
        default.elim [] fun given => MetadataKey.default.pair given.lexemes) = none := by
    cases label <;> cases default <;> rfl
  rw [readEditable]
  change Except.bind (readOptionalKind _) _ = _
  rw [readOptionalKind_lexemes other]
  change Except.bind (readPairs name _ _) _ = _
  rw [read]
  rfl

/-- **The grammar reads the lexemes of an expression as the expression.** -/
theorem ofLexemes_lexemes {expression : Expression} (written : expression.HasForm) :
    ofLexemes expression.lexemes = .ok expression := by
  have read : readExpression expression.lexemes = .ok (expression, []) := by
    cases expression with
    | reference name => rfl
    | declaration name kind default => exact readDeclaration_lexemes written.2
    | editable name kind label default => exact readEditable_lexemes written.2
  rw [ofLexemes, read]
  rfl

end Expression

/-! ## Reading the text back -/

/-- The name of a kind is a name. -/
theorem isName_kind (kind : Kind) : IsName kind.name := by
  cases kind <;> exact ⟨⟨_, _, rfl, by decide, by decide⟩, by decide, by decide⟩

theorem isName_key (key : MetadataKey) : IsName key.name := by
  cases key <;> exact ⟨⟨_, _, rfl, by decide, by decide⟩, by decide, by decide⟩

theorem legible_name {word : String} (name : IsName word) : Legible [.name word] :=
  legible_single name rfl

/-- A default that can be written is legible. -/
theorem Default.legible_lexemes {default : Default} (written : default.HasForm) :
    Legible default.lexemes := by
  cases default with
  | reference name => exact (legible_name written).cons rfl
  | literal value =>
      cases value with
      | string text => exact legible_single trivial rfl
      | number number =>
          cases number with
          | integer number => exact legible_single (NumberLiteral.hasForm_ofInt number) rfl
          | real number => exact written.elim
      | boolean value => exact legible_single trivial rfl
      | color text => exact written.elim

/-- A pair with a legible content can go on a row. -/
theorem MetadataKey.continuation_pair (key : MetadataKey) {content : List Lexeme}
    (legible : Legible content) : Continuation (key.pair content) := by
  have name : Continuation [.mark .comma, .name key.name] :=
    (legible_name (isName_key key)).continuation rfl
  exact name.append (legible.continuation rfl)

namespace Expression

/-- An expression that can be written is legible. -/
theorem legible_lexemes {expression : Expression} (written : expression.HasForm) :
    Legible expression.lexemes := by
  cases expression with
  | reference name => exact (legible_name written).cons rfl
  | declaration name kind default =>
      obtain ⟨isName, hasForm⟩ := written
      have start : Legible [.mark .atSign, .name name] := (legible_name isName).cons rfl
      have typed : Continuation [.mark .colon, .name kind.name] :=
        (legible_name (isName_kind kind)).continuation rfl
      have defaulted : Continuation (default.elim [] fun given => .mark .equals :: given.lexemes) :=
        continuation_elim fun given same =>
          (Default.legible_lexemes (hasForm given same)).continuation rfl
      exact (start.append typed).append defaulted
  | editable name kind label default =>
      obtain ⟨isName, hasForm⟩ := written
      refine (legible_name isName).append (.append ?_ (.append ?_ ?_))
      · exact continuation_elim fun given _ => (legible_name (isName_kind given)).continuation rfl
      · exact continuation_elim fun given _ =>
          MetadataKey.label.continuation_pair (legible_single trivial rfl)
      · exact continuation_elim fun given same =>
          MetadataKey.default.continuation_pair (Default.legible_lexemes (hasForm given same))

/-- **Expressions are read back.** The parser reads what is written for an expression as the
expression. -/
theorem parse_form {expression : Expression} (written : expression.HasForm) (position : Int) :
    parse (String.ofList expression.form) position = .ok expression := by
  have legible := legible_lexemes written
  obtain ⟨row, read, same⟩ := TokenRow.lexes_form legible.written legible.parted position
  have tokenized : TokenRow.tokenize (String.ofList expression.form) position = .ok row := by
    rw [TokenRow.tokenize, String.toList_ofList]
    exact read
  have nonempty : row.tokens.isEmpty = false := by
    obtain ⟨lexeme, starts, _⟩ := legible.first
    rw [← same, TokenRow.lexemes, List.head?_map] at starts
    cases tokens : row.tokens with
    | nil =>
        rw [tokens] at starts
        cases starts
    | cons token rest => rfl
  rw [parse, tokenized]
  simp only [bind, Except.bind, nonempty, same, ofLexemes_lexemes written]
  rfl

end Expression

end EditableTemplate
