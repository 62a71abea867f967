import EditableTemplate.Proofs.Number.Literal

/-!
# The longest number literal

What is split off the start of a text is the longest number literal that stands there
(`NumberLiteral.split?_eq_some_iff`), and nothing is split off exactly if none does
(`NumberLiteral.split?_eq_none_iff`). Whatever other literal the text starts with, each part of the
longest one goes at least as far, so that what is left is the end of what the other leaves
(`NumberLiteral.suffix_of_split?`).
-/

namespace EditableTemplate.NumberLiteral

variable {text rest : List Char} {literal : NumberLiteral}

/-! ## What is split off is a literal -/

theorem isDigit_of_mem_splitFraction {c : Char} (member : c ∈ (splitFraction text).1) :
    Text.isDigit c = true := by
  fun_cases splitFraction text with
  | case1 => simp only [splitFraction, *, if_true, List.not_mem_nil] at member
  | case2 rest some =>
      simp only [splitFraction, some, if_false] at member
      exact List.mem_takeWhile_imp member
  | case3 => simp only [splitFraction, List.not_mem_nil] at member

/-- The sign that is split off is a minus, a plus or none. -/
theorem splitExponentSign_fst (text : List Char) :
    (splitExponentSign text).1 = none ∨ (splitExponentSign text).1 = some '-' ∨
      (splitExponentSign text).1 = some '+' := by
  fun_cases splitExponentSign text <;> simp

/-- An exponent that is split off is well formed. -/
theorem wellFormed_of_mem_splitExponent {exponent : Exponent}
    (split : exponent ∈ (splitExponent text).1) : exponent.WellFormed := by
  cases text with
  | nil => cases split
  | cons marker rest =>
      simp only [splitExponent] at split
      split at split
      · rename_i present
        obtain rfl := Option.some.inj split
        exact ⟨present.1, splitExponentSign_fst rest, present.2,
          fun c member => List.mem_takeWhile_imp member⟩
      · cases split

/-- A literal that is split off is well formed. -/
theorem wellFormed_of_split? (split : split? text = some (literal, rest)) :
    literal.WellFormed := by
  simp only [split?] at split
  split at split
  · cases split
  · rename_i nonempty
    obtain ⟨rfl, _⟩ := Prod.mk.inj (Option.some.inj split)
    exact ⟨nonempty, fun c member => List.mem_takeWhile_imp member,
      fun c member => isDigit_of_mem_splitFraction member,
      fun exponent given => wellFormed_of_mem_splitExponent given⟩

/-! ## What is left -/

/-- What is left of a text behind the digits, the fraction and the exponent that it starts with. -/
def remainder (text : List Char) : List Char :=
  (splitExponent (splitFraction (text.dropWhile Text.isDigit)).2).2

theorem suffix_splitExponent (text : List Char) : (splitExponent text).2 <:+ text :=
  ⟨_, exponentText_splitExponent text⟩

/-- What is left of a text is the end of it. -/
theorem suffix_remainder (text : List Char) : remainder text <:+ text := by
  have fraction : (splitFraction (text.dropWhile Text.isDigit)).2 <:+ _ :=
    ⟨_, fractionText_splitFraction _⟩
  exact ((suffix_splitExponent _).trans fraction).trans (List.dropWhile_suffix _)

/-- Digits in front make no difference to what is left. -/
theorem remainder_digits {digits : List Char} (usual : ∀ c ∈ digits, Text.isDigit c = true)
    (rest : List Char) : remainder (digits ++ rest) = remainder rest := by
  rw [remainder, List.dropWhile_append_of_pos usual, remainder]

/-- Behind a fraction only an exponent is taken away. -/
theorem remainder_fraction {digit : Char} {more : List Char}
    (usual : ∀ c ∈ digit :: more, Text.isDigit c = true) (rest : List Char) :
    remainder (fractionText (digit :: more) ++ rest) =
      (splitExponent (rest.dropWhile Text.isDigit)).2 := by
  have point : Text.isDigit '.' = false := by decide
  have some : (digit :: more ++ rest).takeWhile Text.isDigit ≠ [] := by
    rw [List.takeWhile_append_of_pos usual]
    exact List.cons_ne_nil _ _
  change remainder ('.' :: (digit :: more ++ rest)) = _
  rw [remainder, List.dropWhile_cons_of_neg (Bool.eq_false_iff.mp point), splitFraction,
    if_neg some, List.dropWhile_append_of_pos usual]

theorem remainder_exponent {exponent : Exponent} (formed : exponent.WellFormed)
    (rest : List Char) :
    remainder (exponentText (some exponent) ++ rest) = rest.dropWhile Text.isDigit := by
  have starts := head_exponentText_some formed rest
  have digits := (Text.takeWhile_outside fun c first => (starts c first).1).2
  have fraction : splitFraction (exponentText (some exponent) ++ rest) =
      ([], exponentText (some exponent) ++ rest) :=
    splitFraction_append (List.forall_mem_nil _) starts
  rw [remainder, digits, fraction, splitExponent_exponentText formed]

/-- Behind any fraction and any exponent no more is left than follows them. -/
theorem suffix_remainder_append {fraction : List Char} {exponent : Option Exponent}
    (digits : ∀ c ∈ fraction, Text.isDigit c = true)
    (formed : ∀ given ∈ exponent, given.WellFormed) (rest : List Char) :
    remainder (fractionText fraction ++ (exponentText exponent ++ rest)) <:+ rest := by
  have run : rest.dropWhile Text.isDigit <:+ rest := List.dropWhile_suffix _
  cases fraction with
  | nil =>
      cases exponent with
      | none => exact suffix_remainder rest
      | some given =>
          rw [fractionText, List.nil_append, remainder_exponent (formed given rfl)]
          exact run
  | cons digit more =>
      rw [remainder_fraction digits]
      cases exponent with
      | none => exact (suffix_splitExponent _).trans run
      | some given =>
          have starts := head_exponentText_some (formed given rfl) rest
          rw [(Text.takeWhile_outside fun c first => (starts c first).1).2,
            splitExponent_exponentText (formed given rfl)]
          exact run

/-- **The longest literal.** Of a text that starts with a literal no more is left than the literal
leaves. -/
theorem suffix_of_split? {other : NumberLiteral} {after : List Char} (formed : other.WellFormed)
    (split : split? (other.text ++ after) = some (literal, rest)) : rest <:+ after := by
  have left : rest = remainder (other.whole ++ (fractionText other.fraction ++
      (exponentText other.exponent ++ after))) := by
    simp only [split?, splitSign_text formed] at split
    split at split
    · cases split
    · exact (Prod.mk.inj (Option.some.inj split)).2.symm
  rw [left, remainder_digits formed.whole]
  exact suffix_remainder_append formed.fraction formed.exponent after

/-! ## The literal that is split off -/

/-- A literal is split off from what starts with one. -/
theorem split?_text_ne_none {other : NumberLiteral} (formed : other.WellFormed)
    (after : List Char) : split? (other.text ++ after) ≠ none := by
  simp only [split?, splitSign_text formed, List.takeWhile_append_of_pos formed.whole]
  rw [if_neg (by simp [formed.nonempty])]
  exact Option.some_ne_none _

/-- A literal is known by its text. -/
theorem text_inj {first second : NumberLiteral} (left : first.WellFormed)
    (right : second.WellFormed) (same : first.text = second.text) : first = second := by
  have ends : Ends [] := nofun
  have split := split?_text left ends
  rw [same, split?_text right ends] at split
  exact (Prod.mk.inj (Option.some.inj split)).1.symm

/-- Nothing is split off exactly if the text starts with no literal. -/
theorem split?_eq_none_iff :
    split? text = none ↔ ∀ other : NumberLiteral, other.WellFormed → ¬other.text <+: text := by
  constructor
  · rintro absent other formed ⟨after, rfl⟩
    exact split?_text_ne_none formed after absent
  · intro absent
    cases split : split? text with
    | none => rfl
    | some parts =>
        obtain ⟨literal, rest⟩ := parts
        have starts : literal.text <+: text := ⟨rest, (eq_of_split? split).symm⟩
        exact (absent literal (wellFormed_of_split? split) starts).elim

/-- What is split off is the longest literal that the text starts with. -/
theorem split?_eq_some_iff :
    split? text = some (literal, rest) ↔
      literal.WellFormed ∧ text = literal.text ++ rest ∧
        ∀ other : NumberLiteral, other.WellFormed → other.text <+: text →
          other.text.length ≤ literal.text.length := by
  have longest : ∀ {literal rest}, split? text = some (literal, rest) →
      ∀ other : NumberLiteral, other.WellFormed → other.text <+: text →
        other.text.length ≤ literal.text.length := by
    rintro literal rest split other formed ⟨after, whole⟩
    have parts := eq_of_split? split
    rw [← whole] at split
    have shorter := (suffix_of_split? formed split).length_le
    have lengths := congrArg List.length (whole.trans parts)
    rw [List.length_append, List.length_append] at lengths
    omega
  constructor
  · intro split
    exact ⟨wellFormed_of_split? split, eq_of_split? split, longest split⟩
  · rintro ⟨formed, whole, most⟩
    have starts : literal.text <+: text := ⟨rest, whole.symm⟩
    cases split : split? text with
    | none => exact (split?_eq_none_iff.mp split literal formed starts).elim
    | some parts =>
        obtain ⟨found, left⟩ := parts
        have same := eq_of_split? split
        have formed' := wellFormed_of_split? split
        have lengths : found.text.length = literal.text.length :=
          Nat.le_antisymm (most found formed' ⟨left, same.symm⟩)
            (longest split literal formed starts)
        obtain ⟨texts, rfl⟩ := List.append_inj (same.symm.trans whole) lengths
        rw [text_inj formed' formed texts]

end EditableTemplate.NumberLiteral
