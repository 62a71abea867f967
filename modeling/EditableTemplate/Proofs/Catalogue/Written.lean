import EditableTemplate.Proofs.Concatenation
import EditableTemplate.Proofs.Number.Written
import EditableTemplate.Proofs.Spelling

/-!
# Writing catalogues

A catalogue is written as a template of editable references, one for each entry, with its kind and,
if it has them, its label and its default (`Catalogue.written`). Texts are quoted, and a color is
written as the string that comes to it. If the names are names and the defaults can be spelled
(`Entry.Spellable`), the parser reads back exactly these references (`Catalogue.parse_written`).
-/

namespace EditableTemplate

/-- A text between quotes. -/
def betweenQuotes (text : List Char) : List Char :=
  quoteMark :: escape text ++ [quoteMark]

namespace Default

/-- A default as it is written. -/
def form : Default → List Char
  | .literal (.string text) => betweenQuotes text.characters
  | .literal (.color text) => betweenQuotes text.characters
  | .literal (.number number) => number.shown
  | .literal (.boolean truth) => Value.truth truth
  | .reference name => '$' :: name.toList

/-- A default as a template gives it: a color is given as a string. -/
def plain : Default → Default
  | .literal (.color text) => .literal (.string text)
  | default => default

end Default

/-- A metadata pair as it is written. -/
def MetadataKey.form (key : MetadataKey) (content : List Char) : List Char :=
  [',', ' '] ++ key.name.toList ++ [':', ' '] ++ content

namespace Entry

/-- What is written between the braces for an entry. -/
def content (entry : Entry) : List Char :=
  entry.name.toList ++ [' ', ':', ' '] ++ entry.kind.name.toList ++
    entry.label.elim [] (fun label => MetadataKey.label.form (betweenQuotes label.toList)) ++
    entry.default.elim [] fun default => MetadataKey.default.form default.form

/-- An entry as it is written. -/
def form (entry : Entry) : List Char :=
  braced (' ' :: (entry.content ++ [' ']))

/-- The editable reference that is written for an entry. -/
def expression (entry : Entry) : Expression :=
  .editable entry.name (some entry.kind) entry.label (entry.default.map Default.plain)

end Entry

namespace Catalogue

/-- A catalogue as it is written. -/
def written (catalogue : Catalogue) : String :=
  String.ofList (catalogue.flatMap Entry.form)

/-- The placeholders of a written catalogue that starts at an offset. -/
def nodes (offset : Nat) : Catalogue → List Node
  | [] => []
  | entry :: rest =>
    .placeholder entry.expression offset (offset + entry.form.length) ::
      nodes (offset + entry.form.length) rest

end Catalogue

/-! ## Lexemes -/

/-- A phrase spells a default: it is written so, and it denotes the default as a template gives
it. -/
structure ValuePhrase.Spells (phrase : ValuePhrase) (default : Default) : Prop where
  denotes : phrase.Denotes default.plain
  form : phrase.lexemes.flatMap Lexeme.form = default.form
  legible : Legible phrase.lexemes

theorem ValuePhrase.form_string (text : String) :
    (string text).lexemes.flatMap Lexeme.form =
      betweenQuotes (CodePoints.ofString text).characters := by
  rw [CodePoints.ofString, CodePoints.characters_ofChars]
  simp [lexemes, Lexeme.form, betweenQuotes]

/-- Every spellable default has a phrase that spells it. -/
theorem Default.Spellable.exists_phrase {default : Default} (spellable : default.Spellable) :
    ∃ phrase : ValuePhrase, phrase.Spells default := by
  cases spellable with
  | literal spellable =>
      cases spellable with
      | string text =>
          exact ⟨_, .string text, ValuePhrase.form_string text, legible_single trivial rfl⟩
      | color text _ =>
          exact ⟨_, .string text, ValuePhrase.form_string text, legible_single trivial rfl⟩
      | number writable =>
          obtain ⟨literal, hasForm, text, value⟩ := Number.exists_literal_shown writable
          refine ⟨.number literal, .number value, ?_, legible_single hasForm rfl⟩
          rw [ValuePhrase.lexemes, List.flatMap_singleton]
          exact text
      | boolean truth =>
          refine ⟨.boolean truth, .boolean truth, ?_, legible_single trivial rfl⟩
          rw [ValuePhrase.lexemes, List.flatMap_singleton]
          rfl
  | reference isName =>
      refine ⟨.reference _, .reference _, ?_, (legible_name isName).cons rfl⟩
      simp [ValuePhrase.lexemes, Lexeme.form, Mark.form, form]

theorem MetadataKey.form_pair (key : MetadataKey) (content : List Lexeme) :
    (key.pair content).flatMap Lexeme.form = key.form (content.flatMap Lexeme.form) := by
  simp [pair, form, Lexeme.form, Mark.form]

namespace PairPhrase

/-- Pairs with legible contents can follow a legible row. -/
theorem continuation_flatMap {pairs : List PairPhrase}
    (legible : ∀ pair ∈ pairs, Legible pair.content) : Continuation (pairs.flatMap lexemes) := by
  induction pairs with
  | nil => exact continuation_nil
  | cons pair rest ih =>
      obtain ⟨first, others⟩ := List.forall_mem_cons.mp legible
      rw [List.flatMap_cons]
      exact (pair.key.continuation_pair first).append (ih others)

/-- The pairs of a label and of a default, if there are any. -/
def ofParts (label : Option String) (default : Option ValuePhrase) : List PairPhrase :=
  label.toList.map .label ++ default.toList.map .default

variable {label : Option String} {default : Option ValuePhrase} {kind : Kind}

/-- The pairs made of a label and a default are one for each that is there. -/
theorem mem_ofParts_iff {pair : PairPhrase} :
    pair ∈ ofParts label default ↔
      (∃ text ∈ label, pair = .label text) ∨ ∃ value ∈ default, pair = .default value := by
  simp [ofParts, eq_comm]

/-- The pairs made of a label and a default that converts are proper. -/
theorem proper_ofParts (converts : ∀ value ∈ default, value.Converts) :
    Proper (some kind) (ofParts label default) where
  distinct := by
    cases label <;> cases default <;> simp [ofParts, key]
  agrees := by simp [mem_ofParts_iff]
  converts := by simpa [mem_ofParts_iff] using converts

/-- The pairs made of a label and a default say these two. -/
theorem say_ofParts {said : Option Default}
    (denotes : ∀ given, said = some given ↔ ∃ value ∈ default, value.Denotes given) :
    Say (some kind) (ofParts label default) (some kind) label said where
  kind := by simp [mem_ofParts_iff]
  label := by simp [mem_ofParts_iff]
  default := by simpa [mem_ofParts_iff] using denotes

/-- The pairs made of a label and a legible default can follow a legible row. -/
theorem continuation_ofParts (legible : ∀ value ∈ default, Legible value.lexemes) :
    Continuation ((ofParts label default).flatMap lexemes) := by
  apply continuation_flatMap
  intro pair member
  rcases mem_ofParts_iff.mp member with ⟨text, _, rfl⟩ | ⟨value, given, rfl⟩
  · exact legible_single trivial rfl
  · exact legible value given

/-- The pairs made of a label and a default are written as these two. -/
theorem form_ofParts :
    ((ofParts label default).flatMap lexemes).flatMap Lexeme.form =
      label.elim [] (fun text => MetadataKey.label.form (betweenQuotes text.toList)) ++
        default.elim [] fun value =>
          MetadataKey.default.form (value.lexemes.flatMap Lexeme.form) := by
  cases label <;> cases default <;>
    simp [ofParts, lexemes, key, content, MetadataKey.form_pair, Lexeme.form, betweenQuotes]

end PairPhrase

/-! ## Reading an entry back -/

/-- A name can stand apart from what goes on the row. -/
structure Spaced (name : String) (rest : List Lexeme) : Prop where
  name : IsName name
  continues : Continuation rest
  nonempty : rest ≠ []

namespace Spaced

variable {name : String} {rest : List Lexeme} (spaced : Spaced name rest)

include spaced

/-- What is written reads as the lexemes it was written from. -/
theorem lexes :
    TokenRow.Lexes (name.toList ++ ' ' :: rest.flatMap Lexeme.form) (.name name :: rest) := by
  have after := TokenRow.lexes_form spaced.continues.written spaced.continues.parted
  have stops : Lexeme.Stops (' ' :: rest.flatMap Lexeme.form) := by
    intro c first
    exact .inl (Option.some.inj first).symm
  have written : (Lexeme.name name).HasForm := spaced.name
  exact TokenRow.lexes_form_append written (fun _ => stops) (after.blank (by decide))

theorem shielded : Shielded (name.toList ++ ' ' :: rest.flatMap Lexeme.form) := by
  have first : Shielded (Lexeme.name name).form := Lexeme.shielded_form spaced.name
  have blank : Shielded [' '] := shielded_of_all rfl
  exact first.append (blank.append (shielded_row spaced.continues.written))

theorem tight : Text.Tight (name.toList ++ ' ' :: rest.flatMap Lexeme.form) where
  first := by
    have written : (Lexeme.name name).HasForm := spaced.name
    obtain ⟨c, starts, visible⟩ := (Lexeme.tight_form written rfl).first
    have leads : name.toList.head? = some c := starts
    exact ⟨c, by rw [List.head?_append, leads]; rfl, visible⟩
  last := by
    have final : ∃ lexeme, rest.getLast? = some lexeme ∧ lexeme.separates = false :=
      ⟨_, List.getLast?_eq_some_getLast spaced.nonempty,
        spaced.continues.last _ (List.getLast?_eq_some_getLast spaced.nonempty)⟩
    obtain ⟨c, ends, visible⟩ := exists_getLast?_form spaced.continues.written final
    exact ⟨c, by simp [List.getLast?_append, List.getLast?_cons, ends], visible⟩

end Spaced

/-- A text that reads as the lexemes of a proper phrase is parsed as what the phrase denotes. -/
theorem Expression.parse_of_lexes {text : List Char} {phrase : Phrase} {expression : Expression}
    (lexes : TokenRow.Lexes text phrase.lexemes) (proper : phrase.Proper)
    (denotes : phrase.Denotes expression) (position : Int) :
    parse (String.ofList text) position = .ok expression := by
  obtain ⟨row, read, leaves⟩ := lexes position
  have tokenized : TokenRow.tokenize (String.ofList text) position = .ok row := by
    rw [TokenRow.tokenize, String.toList_ofList]
    exact read
  exact (parse_eq_ok tokenized).mpr (Phrase.ofLexemes_eq_ok.mpr ⟨phrase, leaves, proper, denotes⟩)

namespace Entry

variable {entry : Entry}

/-- What is needed of the phrase of a default, for an entry that may have one. -/
structure SpelledBy (entry : Entry) (phrase : Option ValuePhrase) : Prop where
  denotes : ∀ said, entry.default.map Default.plain = some said ↔
    ∃ given ∈ phrase, given.Denotes said
  converts : ∀ given ∈ phrase, given.Converts
  legible : ∀ given ∈ phrase, Legible given.lexemes
  form : phrase.elim [] (fun given =>
      MetadataKey.default.form (given.lexemes.flatMap Lexeme.form)) =
    entry.default.elim [] fun default => MetadataKey.default.form default.form

/-- Every spellable entry has a phrase that spells it. -/
theorem Spellable.exists_spelledBy (spellable : entry.Spellable) :
    ∃ phrase, entry.SpelledBy phrase := by
  cases given : entry.default with
  | none => exact ⟨none, by simp [given], by simp, by simp, by rw [given]; rfl⟩
  | some default =>
      obtain ⟨phrase, spells⟩ := (spellable.default default given).exists_phrase
      refine ⟨some phrase, ?_, ?_, ?_, ?_⟩
      · intro said
        rw [given, Option.map_some]
        constructor
        · rintro ⟨⟩
          exact ⟨phrase, rfl, spells.denotes⟩
        · rintro ⟨_, ⟨⟩, denotes⟩
          rw [spells.denotes.unique denotes]
      · rintro _ ⟨⟩
        exact ValuePhrase.exists_denotes_iff.mp ⟨_, spells.denotes⟩
      · rintro _ ⟨⟩
        exact spells.legible
      · rw [given]
        exact congrArg MetadataKey.default.form spells.form

/-- The phrase of an entry: its leaves after the name can stand apart from it, and with a blank
between them they are what is written. -/
theorem Spellable.exists_phrase (spellable : entry.Spellable) :
    ∃ (phrase : Phrase) (rest : List Lexeme), phrase.lexemes = .name entry.name :: rest ∧
      phrase.Proper ∧ phrase.Denotes entry.expression ∧ Spaced entry.name rest ∧
      entry.content = entry.name.toList ++ ' ' :: rest.flatMap Lexeme.form := by
  obtain ⟨value, spelled⟩ := spellable.exists_spelledBy
  have kind : Continuation [.mark .colon, .name entry.kind.name] :=
    (legible_name (isName_kind entry.kind)).continuation rfl
  have pairs : Continuation ((PairPhrase.ofParts entry.label value).flatMap PairPhrase.lexemes) :=
    PairPhrase.continuation_ofParts spelled.legible
  refine ⟨.editable entry.name (some entry.kind) (PairPhrase.ofParts entry.label value),
    [.mark .colon, .name entry.kind.name] ++
      (PairPhrase.ofParts entry.label value).flatMap PairPhrase.lexemes, rfl, ?_, ?_, ?_, ?_⟩
  · exact PairPhrase.proper_ofParts spelled.converts
  · exact .editable (PairPhrase.say_ofParts spelled.denotes)
  · exact ⟨spellable.name, kind.append pairs, List.cons_ne_nil _ _⟩
  · rw [List.flatMap_append, PairPhrase.form_ofParts, spelled.form]
    simp [content, Lexeme.form, Mark.form]

/-- The placeholder written for a spellable entry is read as its expression. -/
theorem Spellable.ofSpan_form (spellable : entry.Spellable) (offset : Nat) :
    Node.ofSpan (Span.ofBody offset (' ' :: (entry.content ++ [' ']))) =
      .ok (.placeholder entry.expression offset (offset + entry.form.length)) := by
  obtain ⟨phrase, rest, leaves, proper, denotes, spaced, whole⟩ := spellable.exists_phrase
  have lexes := spaced.lexes
  have tight := spaced.tight
  rw [← leaves, ← whole] at lexes
  rw [← whole] at tight
  have trimmed := Text.trim_between_blanks tight
  refine Node.ofSpan_eq_placeholder.mpr ⟨rfl, ?_, rfl, ?_⟩
  · rw [Span.ofBody, trimmed]
    exact Expression.parse_of_lexes lexes proper denotes _
  · rw [Span.stop_ofBody, form]

/-- What is written for an entry is read as its editable reference. -/
theorem Spellable.readFrom_form (spellable : entry.Spellable) (offset : Nat) (after : List Char) :
    Node.readFrom offset (entry.form ++ after) =
      (Node.readFrom (offset + entry.form.length) after).map
        (.placeholder entry.expression offset (offset + entry.form.length) :: ·) := by
  obtain ⟨_, rest, _, _, _, spaced, whole⟩ := spellable.exists_phrase
  have shielded := spaced.shielded
  rw [← whole] at shielded
  obtain ⟨flat, closed⟩ := shielded.between_blanks
  have read := Node.readFrom_braced flat closed (spellable.ofSpan_form offset) after
  have whole : entry.form ++ after =
      '{' :: '{' :: (' ' :: (entry.content ++ [' ']) ++ '}' :: '}' :: after) := by
    simp [form, braced]
  rw [Span.stop_ofBody, ← form] at read
  rw [whole, read]

end Entry

namespace Catalogue

variable {catalogue : Catalogue}

/-- What is written for spellable entries is read as their nodes. -/
theorem readFrom_form (spellable : ∀ entry ∈ catalogue, entry.Spellable) (offset : Nat) :
    Node.readFrom offset (catalogue.flatMap Entry.form) = .ok (catalogue.nodes offset) := by
  induction catalogue generalizing offset with
  | nil => exact Node.readFrom_text .nil offset
  | cons entry rest ih =>
      obtain ⟨first, others⟩ := List.forall_mem_cons.mp spellable
      rw [List.flatMap_cons, first.readFrom_form, ih others]
      rfl

/-- **Catalogues are read back.** -/
theorem parse_written (spellable : ∀ entry ∈ catalogue, entry.Spellable) :
    Document.parse catalogue.written = .ok ⟨catalogue.written, catalogue.nodes 0⟩ := by
  rw [Document.parse_eq_readFrom]
  have read := readFrom_form spellable 0
  rw [written, String.toList_ofList, read]
  rfl

end Catalogue

end EditableTemplate
