import EditableTemplate.Proofs.Except
import EditableTemplate.Proofs.Template.Segmentation
import EditableTemplate.Template.Grammar
import Mathlib.Tactic.Common

/-!
# Where a malformed expression is reported

A fault of an expression lies in its text or at the end of it. A character that starts no lexeme and
a quote that is not closed are reported where they stand (`TokenRow.exists_of_tokenize_error`). All
that the grammar finds wrong is of another sort (`SyntaxFault.isGrammatical`) and is reported at a
token or at the end of the text, which are no further away (`TokenRow.bounds_positionFromEnd`).
-/

namespace EditableTemplate

/-! ## Faults of the grammar -/

namespace SyntaxFault

/-- Whether a fault is of an expression, and not of the braces of a placeholder. -/
def isInner : SyntaxFault → Bool
  | .unterminatedPlaceholder => false
  | .nestedPlaceholder => false
  | _ => true

/-- Whether a fault is of the grammar, and neither of the braces nor of the characters. -/
def isGrammatical : SyntaxFault → Bool
  | .unterminatedString => false
  | .unexpectedCharacter _ => false
  | fault => fault.isInner

/-- A fault of the grammar is one of an expression. -/
theorem isInner_of_isGrammatical {fault : SyntaxFault}
    (grammatical : fault.isGrammatical = true) : fault.isInner = true := by
  cases fault <;> first | rfl | cases grammatical

end SyntaxFault

/-- All that the grammar finds wrong with a row of lexemes is of its own sort. -/
def Grammatical {α : Type} (outcome : Except ParseFault α) : Prop :=
  outcome.FailsOnly fun fault => fault.fault.isGrammatical = true

open Except (failsOnly_ok failsOnly_error)

/-- Reading a name fails as the grammar does, if its absence is such a fault. -/
theorem grammatical_readName {absent : SyntaxFault} (grammatical : absent.isGrammatical = true)
    (left : List Lexeme) : Grammatical (readName absent left) := by
  fun_cases readName absent left with
  | case1 => exact failsOnly_ok _
  | case2 => exact failsOnly_error grammatical

theorem grammatical_readMark (mark : Mark) {absent : SyntaxFault}
    (grammatical : absent.isGrammatical = true) (left : List Lexeme) :
    Grammatical (readMark mark absent left) := by
  fun_cases readMark mark absent left with
  | case1 => exact failsOnly_ok _
  | case2 => exact failsOnly_error grammatical
  | case3 => exact failsOnly_error grammatical

theorem grammatical_readKind (left : List Lexeme) : Grammatical (readKind left) := by
  fun_cases readKind left with
  | case1 => exact failsOnly_ok _
  | case2 => exact failsOnly_error rfl
  | case3 => exact failsOnly_error rfl

theorem grammatical_readDefault (left : List Lexeme) : Grammatical (readDefault left) := by
  fun_cases readDefault left with
  | case5 rest => exact (grammatical_readName rfl rest).map
  | case1 => exact failsOnly_ok _
  | case2 => exact failsOnly_ok _
  | case3 => exact failsOnly_error rfl
  | case4 => exact failsOnly_ok _
  | case6 => exact failsOnly_error rfl

theorem grammatical_readKey (seen : List MetadataKey) (left : List Lexeme) :
    Grammatical (readKey seen left) := by
  fun_cases readKey seen left with
  | case3 => exact failsOnly_ok _
  | case1 => exact failsOnly_error rfl
  | case2 => exact failsOnly_error rfl
  | case4 => exact failsOnly_error rfl

theorem grammatical_readAgreeingKind (name : String) (given : Option Kind) (left : List Lexeme) :
    Grammatical (readAgreeingKind name given left) := by
  fun_cases readAgreeingKind name given left with
  | case1 _ fault failed => exact failsOnly_error (grammatical_readKind left fault failed)
  | case2 => exact failsOnly_ok _
  | case3 => exact failsOnly_ok _
  | case4 => exact failsOnly_error rfl

theorem grammatical_readLabel (left : List Lexeme) : Grammatical (readLabel left) := by
  fun_cases readLabel left with
  | case1 => exact failsOnly_ok _
  | case2 => exact failsOnly_error rfl

theorem grammatical_readContent (name : String) (description : Description) (key : MetadataKey)
    (left : List Lexeme) : Grammatical (readContent name description key left) := by
  cases key with
  | kind => exact (grammatical_readAgreeingKind name description.kind left).map
  | label => exact (grammatical_readLabel left).map
  | default => exact (grammatical_readDefault left).map

theorem grammatical_readPair (name : String) (description : Description) (left : List Lexeme) :
    Grammatical (readPair name description left) := by
  refine (grammatical_readKey description.keys left).bind ?_
  rintro ⟨key, afterKey⟩ _
  refine (grammatical_readMark .colon rfl afterKey).bind ?_
  intro content _
  exact grammatical_readContent name description key content

/-- Reading all pairs fails as the grammar does. -/
theorem grammatical_readPairs (name : String) (description : Description) (left : List Lexeme) :
    Grammatical (readPairs name description left) := by
  fun_induction readPairs name description left with
  | case1 description rest fault failed =>
      exact failsOnly_error (grammatical_readPair name description rest fault failed)
  | case2 description rest extended after found ih => exact ih
  | case3 => exact failsOnly_ok _

theorem grammatical_readDeclaration (left : List Lexeme) : Grammatical (readDeclaration left) := by
  refine (grammatical_readName rfl left).bind ?_
  rintro ⟨name, afterName⟩ _
  refine (grammatical_readMark .colon rfl afterName).bind ?_
  intro afterColon _
  refine (grammatical_readKind afterColon).bind ?_
  rintro ⟨kind, afterKind⟩ _
  cases marked : afterMark? .equals afterKind with
  | none =>
      simp only [marked]
      exact failsOnly_ok _
  | some rest =>
      simp only [marked]
      exact (grammatical_readDefault rest).bind fun _ _ => failsOnly_ok _

theorem grammatical_readReference (left : List Lexeme) : Grammatical (readReference left) := by
  refine (grammatical_readName rfl left).bind ?_
  rintro ⟨name, rest⟩ _
  cases rest with
  | nil => exact failsOnly_ok _
  | cons next rest => exact failsOnly_error rfl

theorem grammatical_readOptionalKind (left : List Lexeme) :
    Grammatical (readOptionalKind left) := by
  unfold readOptionalKind
  cases afterMark? .colon left with
  | none => exact failsOnly_ok _
  | some rest => exact (grammatical_readKind rest).map

theorem grammatical_readEditable (left : List Lexeme) : Grammatical (readEditable left) := by
  refine (grammatical_readName rfl left).bind ?_
  rintro ⟨name, afterName⟩ _
  refine (grammatical_readOptionalKind afterName).bind ?_
  rintro ⟨kind, afterKind⟩ _
  exact (grammatical_readPairs name ⟨kind, none, none, []⟩ afterKind).bind
    fun _ _ => failsOnly_ok _

/-- Reading an expression fails as the grammar does. -/
theorem grammatical_readExpression (left : List Lexeme) : Grammatical (readExpression left) := by
  cases left with
  | nil => exact grammatical_readEditable []
  | cons first rest =>
      cases first with
      | mark sign =>
          cases sign with
          | atSign => exact grammatical_readDeclaration rest
          | dollar => exact grammatical_readReference rest
          | _ => exact grammatical_readEditable _
      | _ => exact grammatical_readEditable _

/-- Reading a whole row of lexemes fails as the grammar does. -/
theorem grammatical_ofLexemes (lexemes : List Lexeme) :
    Grammatical (Expression.ofLexemes lexemes) := by
  refine (grammatical_readExpression lexemes).bind ?_
  rintro ⟨expression, rest⟩ _
  cases rest with
  | nil => exact failsOnly_ok _
  | cons next rest => exact failsOnly_error rfl

/-! ## Positions -/

namespace SyntaxFault

/-- If a fault tells about a character or a quote, that stands in the text at the offset. -/
def PointsAt (text : List Char) (offset : Nat) : SyntaxFault → Prop
  | .unexpectedCharacter c => text[offset]? = some c
  | .unterminatedString => text[offset]? = some quoteMark
  | _ => True

/-- A fault that points at a character points at it in any text that has it there. -/
theorem PointsAt.imp {text other : List Char} {offset place : Nat} {fault : SyntaxFault}
    (points : fault.PointsAt text offset)
    (found : ∀ c, text[offset]? = some c → other[place]? = some c) :
    fault.PointsAt other place := by
  cases fault with
  | unexpectedCharacter c => exact found c points
  | unterminatedString => exact found quoteMark points
  | _ => trivial

/-- A fault of the grammar tells about no character. -/
theorem pointsAt_of_isGrammatical {fault : SyntaxFault} (grammatical : fault.isGrammatical = true)
    (text : List Char) (offset : Nat) : fault.PointsAt text offset := by
  cases fault with
  | unexpectedCharacter c => cases grammatical
  | unterminatedString => cases grammatical
  | _ => trivial

end SyntaxFault

theorem Lexeme.isInner_refusal (c : Char) : (refusal c).isInner = true := by
  unfold refusal
  split <;> rfl

/-- What is wrong with a character points at it. -/
theorem Lexeme.pointsAt_refusal {c : Char} {text : List Char} {offset : Nat}
    (stands : text[offset]? = some c) : (refusal c).PointsAt text offset := by
  unfold refusal
  split
  · rename_i quote
    subst quote
    exact stands
  · exact stands

/-- What the grammar finds wrong is reported in the text or at the end of it. -/
theorem TokenRow.bounds_positionFromEnd {text : String} {position : Int} {row : TokenRow}
    (tokenized : tokenize text position = .ok row) (remaining : Nat) :
    position ≤ row.positionFromEnd remaining ∧
      row.positionFromEnd remaining ≤ position + text.toList.length := by
  obtain ⟨parts, _, same, rfl⟩ := exists_exact_of_tokenize tokenized
  have place := (parts.row position).getElem?_positions remaining
  rw [← same]
  exact Segmentation.bounds_of_mem_positions (List.mem_of_getElem? place)

/-- A malformed expression is reported in its text or at the end of it. -/
theorem Expression.exists_of_parse_error {content : String} {position : Nat} {failure : Failure}
    (failed : parse content position = .error failure) :
    ∃ fault place, failure = .malformed fault ↑(position + place) ∧ fault.isInner = true ∧
      place ≤ content.toList.length ∧ fault.PointsAt content.toList place := by
  rcases Except.bind_eq_error.mp failed with tokenized | ⟨row, tokenized, ran⟩
  · obtain ⟨parts, c, after, _, whole, _, rfl⟩ := TokenRow.exists_of_tokenize_error tokenized
    have stands : content.toList[parts.text.length]? = some c := by simp [whole]
    exact ⟨Lexeme.refusal c, parts.text.length, by rw [Int.natCast_add], Lexeme.isInner_refusal c,
      by simp [whole], Lexeme.pointsAt_refusal stands⟩
  · split at ran
    · obtain rfl := Except.error.inj ran
      exact ⟨.emptyPlaceholder, 0, rfl, rfl, Nat.zero_le _, trivial⟩
    · split at ran
      · cases ran
      · rename_i fault refused
        obtain rfl := Except.error.inj ran
        have grammatical := grammatical_ofLexemes row.lexemes fault refused
        -- Positions are integers; by these bounds the one reported is a place in the text.
        obtain ⟨low, high⟩ := TokenRow.bounds_positionFromEnd tokenized fault.remaining
        refine ⟨fault.fault, (row.positionFromEnd fault.remaining).toNat - position, ?_,
          SyntaxFault.isInner_of_isGrammatical grammatical, by omega,
          SyntaxFault.pointsAt_of_isGrammatical grammatical _ _⟩
        congr 1
        omega

end EditableTemplate
