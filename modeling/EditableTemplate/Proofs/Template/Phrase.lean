import EditableTemplate.Proofs.Template.Grammar

/-!
# Phrases of the grammar

A phrase is a derivation of the grammar: a declaration, a bare reference or an editable reference
with metadata pairs in any order. Its leaves are lexemes (`Phrase.lexemes`), and no two phrases have
the same ones (`Phrase.lexemes_injective`). The grammar itself names the kinds and the keys. What it
can not express is that no key occurs twice, that the kinds of an editable reference agree, and that
number literals have values (`Phrase.Proper`). The expression that a phrase denotes is given by what
is among its parts (`Phrase.Denotes`), not by the order in which they are read.
-/

namespace EditableTemplate

/-! ## Phrases -/

/-- A derivation of a default. -/
inductive ValuePhrase
  /-- A quoted text. -/
  | string (text : String)
  /-- A number literal. -/
  | number (literal : NumberLiteral)
  /-- A truth value. -/
  | boolean (value : Bool)
  /-- A dollar sign and a name. -/
  | reference (name : String)
  deriving DecidableEq

namespace ValuePhrase

/-- The leaves of a default. -/
def lexemes : ValuePhrase → List Lexeme
  | .string text => [.string text]
  | .number literal => [.number literal]
  | .boolean value => [.boolean value]
  | .reference name => [.mark .dollar, .name name]

/-- A number literal has a value: it is a whole number of few enough digits, or finite. -/
def Converts : ValuePhrase → Prop
  | .number literal => ∃ value, literal.value? = some value
  | _ => True

/-- What a default denotes. -/
inductive Denotes : ValuePhrase → Default → Prop
  | string (text : String) : Denotes (.string text) (.literal (.string (CodePoints.ofString text)))
  | number {literal : NumberLiteral} {value : Number} (converts : literal.value? = some value) :
      Denotes (.number literal) (.literal (.number value))
  | boolean (value : Bool) : Denotes (.boolean value) (.literal (.boolean value))
  | reference (name : String) : Denotes (.reference name) (.reference name)

/-- A value phrase denotes something exactly where it converts. -/
theorem exists_denotes_iff {phrase : ValuePhrase} :
    (∃ default, phrase.Denotes default) ↔ phrase.Converts := by
  cases phrase with
  | string text => exact ⟨fun _ => trivial, fun _ => ⟨_, .string text⟩⟩
  | number literal =>
      constructor
      · rintro ⟨_, denotes⟩
        cases denotes with
        | number converts => exact ⟨_, converts⟩
      · rintro ⟨value, converts⟩
        exact ⟨_, .number converts⟩
  | boolean value => exact ⟨fun _ => trivial, fun _ => ⟨_, .boolean value⟩⟩
  | reference name => exact ⟨fun _ => trivial, fun _ => ⟨_, .reference name⟩⟩

/-- A value phrase denotes one default. -/
theorem Denotes.unique {phrase : ValuePhrase} {first second : Default}
    (left : phrase.Denotes first) (right : phrase.Denotes second) : first = second := by
  cases left with
  | string text => cases right with | string => rfl
  | number converts =>
      cases right with
      | number converts' => rw [Option.some.inj (converts.symm.trans converts')]
  | boolean value => cases right with | boolean => rfl
  | reference name => cases right with | reference => rfl

/-- The leaves of a default tell it, and where they end. -/
theorem append_inj {first second : ValuePhrase} {left right : List Lexeme}
    (same : first.lexemes ++ left = second.lexemes ++ right) :
    first = second ∧ left = right := by
  cases first <;> cases second <;> simp_all [lexemes]

end ValuePhrase

/-- A derivation of a metadata pair. -/
inductive PairPhrase
  /-- The key for the kind, and a kind. -/
  | kind (kind : Kind)
  /-- The key for the label, and a quoted text. -/
  | label (text : String)
  /-- The key for the default, and a default. -/
  | default (value : ValuePhrase)
  deriving DecidableEq

namespace PairPhrase

/-- The key of a pair. -/
def key : PairPhrase → MetadataKey
  | .kind _ => .kind
  | .label _ => .label
  | .default _ => .default

/-- The leaves of what stands after the key and its colon. -/
def content : PairPhrase → List Lexeme
  | .kind given => [.name given.name]
  | .label text => [.string text]
  | .default value => value.lexemes

/-- The leaves of a pair. -/
def lexemes (pair : PairPhrase) : List Lexeme :=
  pair.key.pair pair.content

/-- The conditions on the pairs of an editable reference, given the kind after its name. -/
structure Proper (given : Option Kind) (pairs : List PairPhrase) : Prop where
  distinct : (pairs.map key).Nodup
  agrees : ∀ kind, .kind kind ∈ pairs → ∀ first ∈ given, first = kind
  converts : ∀ value, .default value ∈ pairs → value.Converts

/-- What the pairs of an editable reference say, together with the kind after its name. -/
structure Say (given : Option Kind) (pairs : List PairPhrase) (kind : Option Kind)
    (label : Option String) (default : Option Default) : Prop where
  kind : ∀ said, kind = some said ↔ given = some said ∨ .kind said ∈ pairs
  label : ∀ said, label = some said ↔ .label said ∈ pairs
  default : ∀ said, default = some said ↔ ∃ value, .default value ∈ pairs ∧ value.Denotes said

end PairPhrase

/-- A derivation of an expression. -/
inductive Phrase
  /-- The mark of a declaration, a name, a kind, and perhaps a default. -/
  | declaration (name : String) (kind : Kind) (default : Option ValuePhrase)
  /-- A dollar sign and a name. -/
  | reference (name : String)
  /-- A name, perhaps a kind, and metadata pairs. -/
  | editable (name : String) (kind : Option Kind) (pairs : List PairPhrase)
  deriving DecidableEq

namespace Phrase

/-- The leaves of an expression. -/
def lexemes : Phrase → List Lexeme
  | .declaration name kind default =>
      [.mark .atSign, .name name, .mark .colon, .name kind.name] ++
        default.elim [] fun value => .mark .equals :: value.lexemes
  | .reference name => [.mark .dollar, .name name]
  | .editable name kind pairs =>
      .name name :: (kind.elim [] (fun given => [.mark .colon, .name given.name]) ++
        pairs.flatMap PairPhrase.lexemes)

/-- The conditions that the grammar does not express. -/
def Proper : Phrase → Prop
  | .declaration _ _ default => ∀ value ∈ default, value.Converts
  | .reference _ => True
  | .editable _ kind pairs => PairPhrase.Proper kind pairs

/-- The expression that a phrase denotes. -/
inductive Denotes : Phrase → Expression → Prop
  | declaration {name : String} {kind : Kind} {value : Option ValuePhrase}
      {default : Option Default}
      (denotes : ∀ said, default = some said ↔ ∃ given ∈ value, given.Denotes said) :
      Denotes (.declaration name kind value) (.declaration name kind default)
  | reference (name : String) : Denotes (.reference name) (.reference name)
  | editable {name : String} {given kind : Option Kind} {pairs : List PairPhrase}
      {label : Option String} {default : Option Default}
      (say : PairPhrase.Say given pairs kind label default) :
      Denotes (.editable name given pairs) (.editable name kind label default)

theorem denotes_declaration (name : String) (kind : Kind) :
    (declaration name kind none).Denotes (.declaration name kind none) :=
  .declaration (by simp)

theorem denotes_declaration_default {value : ValuePhrase} {said : Default}
    (denotes : value.Denotes said) (name : String) (kind : Kind) :
    (declaration name kind (some value)).Denotes (.declaration name kind (some said)) := by
  refine .declaration fun other => ?_
  constructor
  · rintro ⟨⟩
    exact ⟨value, rfl, denotes⟩
  · rintro ⟨_, ⟨⟩, denotes'⟩
    rw [denotes.unique denotes']

end Phrase

/-! ## No two phrases have the same leaves -/

/-- Kinds have different names. -/
theorem Kind.name_injective : Function.Injective Kind.name := by
  intro first second same
  exact Option.some.inj ((ofName?_name first).symm.trans (same ▸ ofName?_name second))

namespace PairPhrase

/-- The leaves of a pair and what follows them can be told apart. -/
theorem append_inj {first second : PairPhrase} {left right : List Lexeme}
    (same : first.lexemes ++ left = second.lexemes ++ right) :
    first = second ∧ left = right := by
  have keys : first.key = second.key := by
    simp only [lexemes, MetadataKey.pair, List.cons_append, List.cons.injEq, Lexeme.name.injEq]
      at same
    revert same
    cases first <;> cases second <;> simp [key, MetadataKey.name]
  have contents : first.content ++ left = second.content ++ right := by
    simpa [lexemes, MetadataKey.pair, keys] using same
  cases first with
  | kind kind =>
      cases second with
      | kind kind' =>
          simp only [content, List.cons_append, List.nil_append, List.cons.injEq,
            Lexeme.name.injEq] at contents
          exact ⟨by rw [Kind.name_injective contents.1], contents.2⟩
      | label text => cases keys
      | default value => cases keys
  | label text =>
      cases second with
      | kind kind => cases keys
      | label text' =>
          simp only [content, List.cons_append, List.nil_append, List.cons.injEq,
            Lexeme.string.injEq] at contents
          exact ⟨by rw [contents.1], contents.2⟩
      | default value => cases keys
  | default value =>
      cases second with
      | kind kind => cases keys
      | label text => cases keys
      | default value' =>
          obtain ⟨rfl, rest⟩ := ValuePhrase.append_inj contents
          exact ⟨rfl, rest⟩

/-- Different rows of pairs have different leaves. -/
theorem flatMap_lexemes_injective :
    Function.Injective fun pairs : List PairPhrase => pairs.flatMap lexemes := by
  intro first
  induction first with
  | nil =>
      intro second same
      cases second with
      | nil => rfl
      | cons pair rest => cases same
  | cons pair rest ih =>
      intro second same
      cases second with
      | nil => cases same
      | cons pair' rest' =>
          obtain ⟨rfl, tails⟩ := append_inj same
          rw [ih tails]

/-- Pairs start with a comma, if there are any. -/
theorem afterMark?_flatMap (pairs : List PairPhrase) :
    afterMark? .colon (pairs.flatMap lexemes) = none := by
  cases pairs with
  | nil => rfl
  | cons pair rest => rfl

end PairPhrase

namespace Phrase

/-- The kind after a name stands before the pairs. -/
theorem kind_append_inj {first second : Option Kind} {left right : List PairPhrase}
    (same : first.elim [] (fun given => [Lexeme.mark .colon, .name given.name]) ++
        left.flatMap PairPhrase.lexemes =
      second.elim [] (fun given => [Lexeme.mark .colon, .name given.name]) ++
        right.flatMap PairPhrase.lexemes) : first = second ∧ left = right := by
  have optional := congrArg (afterMark? .colon) same
  cases first with
  | none =>
      cases second with
      | none => exact ⟨rfl, PairPhrase.flatMap_lexemes_injective same⟩
      | some kind => cases (PairPhrase.afterMark?_flatMap left).symm.trans optional
  | some kind =>
      cases second with
      | none => cases optional.trans (PairPhrase.afterMark?_flatMap right)
      | some kind' =>
          simp only [Option.elim_some, List.cons_append, List.nil_append, List.cons.injEq,
            Lexeme.name.injEq, true_and] at same
          exact ⟨by rw [Kind.name_injective same.1],
            PairPhrase.flatMap_lexemes_injective same.2⟩

/-- **The grammar is unambiguous.** -/
theorem lexemes_injective : Function.Injective lexemes := by
  intro first second same
  cases first with
  | declaration name kind default =>
      cases second with
      | declaration name' kind' default' =>
          simp only [lexemes, List.cons_append, List.nil_append, List.cons.injEq,
            Lexeme.name.injEq, true_and] at same
          obtain ⟨rfl, kinds, tails⟩ := same
          obtain rfl := Kind.name_injective kinds
          cases default with
          | none =>
              cases default' with
              | none => rfl
              | some value => cases tails
          | some value =>
              cases default' with
              | none => cases tails
              | some value' =>
                  have leaves : value.lexemes ++ [] = value'.lexemes ++ [] := by
                    simpa using tails
                  rw [(ValuePhrase.append_inj leaves).1]
      | reference name' => cases same
      | editable name' kind' pairs => cases same
  | reference name =>
      cases second with
      | declaration name' kind' default' => cases same
      | reference name' =>
          cases same
          rfl
      | editable name' kind' pairs => cases same
  | editable name kind pairs =>
      cases second with
      | declaration name' kind' default' => cases same
      | reference name' => cases same
      | editable name' kind' pairs' =>
          simp only [lexemes, List.cons.injEq, Lexeme.name.injEq] at same
          obtain ⟨rfl, tails⟩ := same
          obtain ⟨rfl, rfl⟩ := kind_append_inj tails
          rfl

end Phrase

end EditableTemplate
