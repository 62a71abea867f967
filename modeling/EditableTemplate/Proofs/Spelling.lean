import EditableTemplate.Proofs.Catalogue.Merge
import EditableTemplate.Proofs.Template.Acceptance
import EditableTemplate.Proofs.Template.Node

/-!
# What a template can spell

A template spells texts of characters, numbers of few enough digits, truth values, and references to
what the grammar takes for names. It spells no color, but a string can come to one, and then that is
a color without blank characters around it (`Value.Spellable.retag?`). All that the placeholders of
a parsed document say can be spelled (`Document.spellable_of_mem_mentions`), and so can every entry
that sums it up (`Catalogue.spellable_of_collect`).
-/

namespace EditableTemplate

/-- A value that a template can spell, a color as the string that comes to it. -/
inductive Value.Spellable : Value → Prop
  | string (text : String) : Spellable (.string (CodePoints.ofString text))
  | number {number : Number} (writable : number.writable = true) : Spellable (.number number)
  | boolean (truth : Bool) : Spellable (.boolean truth)
  | color (text : String) (valid : Color.ofText? (CodePoints.ofString text) =
      some (CodePoints.ofString text)) : Spellable (.color (CodePoints.ofString text))

/-- A default that a template can spell. -/
inductive Default.Spellable : Default → Prop
  | literal {value : Value} (spellable : value.Spellable) : Spellable (.literal value)
  | reference {name : String} (isName : IsName name) : Spellable (.reference name)

theorem CodePoints.ofChars_eq_ofString (chars : List Char) :
    ofChars chars = ofString (String.ofList chars) := by
  rw [ofString, String.toList_ofList]

/-- What a value comes to as one of another kind can be spelled as well. -/
theorem Value.Spellable.retag? {value result : Value} {declared : Kind}
    (spellable : value.Spellable) (retagged : value.retag? declared = some result) :
    result.Spellable := by
  cases spellable with
  | string text =>
      cases declared with
      | string =>
          cases retagged
          exact .string text
      | color =>
          obtain ⟨color, found, rfl⟩ := Option.map_eq_some_iff.mp retagged
          have again := Color.ofText?_of_ofText? found
          obtain ⟨chars, rfl, _, _⟩ := Color.exists_chars_of_ofText? found
          rw [CodePoints.ofChars_eq_ofString] at again ⊢
          exact .color _ again
      | number => cases retagged
      | boolean => cases retagged
  | number writable =>
      cases declared <;> cases retagged
      exact .number writable
  | boolean truth =>
      cases declared <;> cases retagged
      exact .boolean truth
  | color text valid =>
      cases declared with
      | string =>
          cases retagged
          exact .string text
      | color =>
          cases retagged
          exact .color text valid
      | number => cases retagged
      | boolean => cases retagged

/-- A spellable default stays spellable under another kind. -/
theorem Default.Spellable.retag? {default result : Default} {kind : Kind}
    (spellable : default.Spellable) (retagged : default.retag? kind = some result) :
    result.Spellable := by
  cases spellable with
  | literal spellable =>
      obtain ⟨value, found, rfl⟩ := Option.map_eq_some_iff.mp retagged
      exact .literal (spellable.retag? found)
  | reference isName =>
      cases retagged
      exact .reference isName

/-! ## What the placeholders say -/

/-- What a phrase denotes is spellable, if its names are names of the grammar. -/
theorem ValuePhrase.Denotes.spellable {phrase : ValuePhrase} {default : Default}
    (denotes : phrase.Denotes default) (names : ∀ word, .name word ∈ phrase.lexemes → IsName word) :
    default.Spellable := by
  cases denotes with
  | string text => exact .literal (.string text)
  | number converts => exact .literal (.number (NumberLiteral.writable_of_value? converts))
  | boolean value => exact .literal (.boolean value)
  | reference name => exact .reference (names name (by simp [lexemes]))

/-- What a mention says can be spelled: its name is one, and so is its default. -/
structure Mention.Spellable (mention : Mention) : Prop where
  name : IsName mention.name
  default : ∀ default, mention.default = some default → default.Spellable

/-- A mention made of what a phrase denotes is spellable, if its names are names of the grammar. -/
theorem Phrase.Denotes.spellable {phrase : Phrase} {expression : Expression} {offset : Nat}
    {mention : Mention} (denotes : phrase.Denotes expression)
    (names : ∀ word, .name word ∈ phrase.lexemes → IsName word)
    (mentioned : Mention.ofPlaceholder (expression, offset) = some mention) :
    mention.Spellable := by
  cases denotes with
  | @declaration name kind value default said =>
      cases mentioned
      refine ⟨names name (by simp [lexemes]), ?_⟩
      intro given same
      obtain ⟨leaf, present, meant⟩ := (said given).mp same
      obtain rfl := Option.mem_def.mp present
      apply meant.spellable
      intro word member
      exact names word (by simp [lexemes, member])
  | reference name => cases mentioned
  | @editable name given kind pairs label default say =>
      cases mentioned
      refine ⟨names name (by simp [lexemes]), ?_⟩
      intro said same
      obtain ⟨leaf, present, meant⟩ := (say.default said).mp same
      apply meant.spellable
      intro word member
      apply names
      have inside : .name word ∈ pairs.flatMap PairPhrase.lexemes :=
        List.mem_flatMap.mpr ⟨.default leaf, present, by
          simp [PairPhrase.lexemes, PairPhrase.content, MetadataKey.pair, member]⟩
      simp [lexemes, inside]

namespace Document

variable {source : String} {document : Document}

/-- **What a template says can be spelled.** -/
theorem spellable_of_mem_mentions (parsed : parse source = .ok document) {mention : Mention}
    (member : mention ∈ document.mentions) : mention.Spellable := by
  obtain ⟨⟨expression, offset⟩, listed, mentioned⟩ := List.mem_filterMap.mp member
  obtain ⟨content, position, read⟩ := exists_parse_of_mem_placeholders parsed listed
  have ran := read
  obtain ⟨row, tokenized, _⟩ := Except.bind_eq_ok.mp ran
  obtain ⟨phrase, leaves, _, denotes⟩ :=
    Phrase.ofLexemes_eq_ok.mp ((Expression.parse_eq_ok tokenized).mp read)
  apply denotes.spellable _ mentioned
  intro word present
  rw [← leaves] at present
  exact TokenRow.isName_of_mem_lexemes tokenized present

/-- The defaults of a document that was parsed are spellable. -/
theorem spellable_of_default? (parsed : parse source = .ok document) {name : String}
    {default : Default} (given : document.default? name = some default) : default.Spellable := by
  obtain ⟨mention, member, _, gives⟩ := Mention.mem_given_iff.mp (List.mem_of_getLast? given)
  exact (spellable_of_mem_mentions parsed member).default default gives

end Document

/-- An entry that a template can spell. -/
structure Entry.Spellable (entry : Entry) : Prop where
  name : IsName entry.name
  default : ∀ default, entry.default = some default → default.Spellable

/-- Every entry of a parsed document can be spelled. -/
theorem Catalogue.spellable_of_collect {source : String} {document : Document}
    {policy : MergePolicy} {catalogue : Catalogue} (parsed : Document.parse source = .ok document)
    (collected : collect policy document = .ok catalogue) {entry : Entry}
    (member : entry ∈ catalogue) : entry.Spellable := by
  have sums := sumsUp_of_collect collected member
  constructor
  · obtain ⟨mention, found, _⟩ := Option.map_eq_some_iff.mp sums.offset
    have named : mention.name = entry.name := by simpa using List.find?_some found
    rw [← named]
    exact (Document.spellable_of_mem_mentions parsed (List.mem_of_find?_eq_some found)).name
  · intro default given
    have retagged := sums.default
    rw [given, Option.map_some] at retagged
    obtain ⟨said, first, result⟩ := Option.map_eq_some_iff.mp retagged
    exact (Document.spellable_of_default? parsed first).retag? result

end EditableTemplate
