import EditableTemplate.Proofs.Number.Longest
import EditableTemplate.Proofs.Template.Quotation

/-!
# The patterns of lexemes

Blank runs and lexemes are matched by five patterns, tried in order (`Pattern`): at the start of a
text the first pattern that matches there takes as much as it can (`Pattern.Chooses`). No character
starts two of them (`Pattern.eq_of_starts`), so there is one choice at most. `Lexeme.read` makes it
(`Lexeme.read_eq_ok_iff`) and fails exactly where no pattern matches (`Lexeme.read_eq_error_iff`).

Only a number, a mark and a word are bounded by what follows them, and none of them holds a blank
character. So a slice is still the one chosen if what follows it changes behind its first blank
(`Lexeme.TakenFrom.respaced`).
-/

namespace EditableTemplate

theorem isBlank_of_isNameStart {c : Char} (start : isNameStart c = true) :
    Text.isBlank c = false := by
  obtain ⟨low, high⟩ := Lexeme.bounds_of_isNameStart start
  exact Text.isBlank_eq_false (Nat.lt_of_lt_of_le (by decide) low)
    (Nat.lt_of_le_of_lt high (by decide))

theorem Mark.char_of_ofChar? {c : Char} {sign : Mark} (found : ofChar? c = some sign) :
    sign.char = c := by
  have same := List.find?_some found
  exact of_decide_eq_true same

/-- The forms of what a placeholder is made of. -/
inductive Pattern
  /-- A run of blank characters. -/
  | blanks
  /-- A quoted text. -/
  | quotation
  /-- A number literal. -/
  | number
  /-- A mark. -/
  | mark
  /-- A name or a truth value. -/
  | word
  deriving DecidableEq

namespace Pattern

/-- All patterns, in the order in which they are tried. -/
def all : List Pattern := [.blanks, .quotation, .number, .mark, .word]

/-- A slice is of the form of a pattern. -/
def Matches : Pattern → List Char → Prop
  | .blanks, slice => slice ≠ [] ∧ ∀ c ∈ slice, Text.isBlank c = true
  | .quotation, slice => ∃ body, QuotedBody body ∧ slice = quoteMark :: body ++ [quoteMark]
  | .number, slice => ∃ literal : NumberLiteral, literal.WellFormed ∧ slice = literal.text
  | .mark, slice => ∃ sign : Mark, slice = [sign.char]
  | .word, slice => ∃ first rest, slice = first :: rest ∧ isNameStart first = true ∧
      rest.all isNameChar = true

/-- No pattern matches at the start of a text. -/
def NoneMatches (text : List Char) : Prop :=
  ∀ (pattern : Pattern) (slice : List Char), pattern.Matches slice → ¬slice <+: text

/-- A slice is chosen at the start of a text: no earlier pattern matches there, and its own does not
match more of the text. -/
structure Chooses (pattern : Pattern) (text slice : List Char) : Prop where
  matched : pattern.Matches slice
  within : slice <+: text
  longest : ∀ other, pattern.Matches other → other <+: text → other.length ≤ slice.length
  first : ∀ earlier ∈ all.takeWhile (· ≠ pattern), ∀ other, earlier.Matches other →
    ¬other <+: text

/-! ## The first character -/

/-- The characters that slices of a pattern start with. -/
def starts : Pattern → Char → Bool
  | .blanks, c => Text.isBlank c
  | .quotation, c => c = quoteMark
  | .number, c => c = '-' || Text.isDigit c
  | .mark, c => (Mark.ofChar? c).isSome
  | .word, c => isNameStart c

/-- A slice of a pattern starts with a character of the pattern. -/
theorem exists_starts {pattern : Pattern} {slice : List Char} (matched : pattern.Matches slice) :
    ∃ c rest, slice = c :: rest ∧ pattern.starts c = true := by
  cases pattern with
  | blanks =>
      obtain ⟨c, rest, rfl⟩ := List.exists_cons_of_ne_nil matched.1
      exact ⟨c, rest, rfl, matched.2 c (List.mem_cons_self ..)⟩
  | quotation =>
      obtain ⟨body, _, rfl⟩ := matched
      exact ⟨quoteMark, body ++ [quoteMark], rfl, rfl⟩
  | number =>
      obtain ⟨literal, formed, rfl⟩ := matched
      obtain ⟨digit, more, whole⟩ := List.exists_cons_of_ne_nil formed.nonempty
      have isDigit : Text.isDigit digit = true := formed.whole digit (by simp [whole])
      rw [NumberLiteral.text, whole]
      cases literal.negative with
      | true => exact ⟨'-', _, rfl, rfl⟩
      | false => exact ⟨digit, _, rfl, by simp [starts, isDigit]⟩
  | mark =>
      obtain ⟨sign, rfl⟩ := matched
      exact ⟨sign.char, [], rfl, by cases sign <;> rfl⟩
  | word =>
      obtain ⟨first, rest, rfl, start, _⟩ := matched
      exact ⟨first, rest, rfl, start⟩

/-- A text that a slice of a pattern starts starts with a character of the pattern. -/
theorem starts_of_within {pattern : Pattern} {slice rest : List Char} {c : Char}
    (matched : pattern.Matches slice) (within : slice <+: c :: rest) :
    pattern.starts c = true := by
  obtain ⟨d, tail, rfl, start⟩ := exists_starts matched
  obtain ⟨rfl, _⟩ := List.cons_prefix_cons.mp within
  exact start

/-- The pattern of the slices that start with a character. -/
def ofStart (c : Char) : Pattern :=
  if Text.isBlank c then .blanks
  else if c = quoteMark then .quotation
  else if c = '-' || Text.isDigit c then .number
  else if (Mark.ofChar? c).isSome then .mark
  else .word

/-- The character at its start determines the pattern of a slice. -/
theorem ofStart_eq {pattern : Pattern} {c : Char} (start : pattern.starts c = true) :
    ofStart c = pattern := by
  cases pattern with
  | blanks =>
      have blank : Text.isBlank c = true := start
      rw [ofStart, if_pos blank]
  | quotation =>
      obtain rfl : c = quoteMark := of_decide_eq_true start
      decide
  | number =>
      rcases Bool.or_eq_true_iff.mp start with minus | digit
      · obtain rfl := of_decide_eq_true minus
        decide
      · have unquoted : c ≠ quoteMark := NumberLiteral.ne_of_isDigit digit (by decide)
        rw [ofStart, Text.isBlank_of_isDigit digit, if_neg Bool.false_ne_true, if_neg unquoted,
          if_pos (by simp [digit])]
  | mark =>
      obtain ⟨sign, found⟩ := Option.isSome_iff_exists.mp start
      obtain rfl := Mark.char_of_ofChar? found
      cases sign <;> decide
  | word =>
      have start : isNameStart c = true := start
      have unquoted : c ≠ quoteMark := by
        rintro rfl
        cases start
      have unsigned : c ≠ '-' := by
        rintro rfl
        cases start
      simp [ofStart, isBlank_of_isNameStart start, unquoted, unsigned,
        Lexeme.isDigit_of_isNameStart start, Lexeme.ofChar?_eq_none start]

/-- No character starts slices of two patterns. -/
theorem eq_of_starts {first second : Pattern} {c : Char} (left : first.starts c = true)
    (right : second.starts c = true) : first = second :=
  (ofStart_eq left).symm.trans (ofStart_eq right)

/-- Where slices of two patterns stand, the patterns are the same. -/
theorem eq_of_within {first second : Pattern} {text slice other : List Char}
    (left : first.Matches slice) (within : slice <+: text) (right : second.Matches other)
    (within' : other <+: text) : first = second := by
  obtain ⟨c, rest, rfl, start⟩ := exists_starts left
  obtain ⟨after, rfl⟩ := within
  exact eq_of_starts start (starts_of_within right within')

/-- At most one quoted text stands at the start of a text. -/
theorem eq_of_quotations {text slice other : List Char} (left : Matches .quotation slice)
    (within : slice <+: text) (right : Matches .quotation other) (within' : other <+: text) :
    slice = other := by
  obtain ⟨body, quoted, rfl⟩ := left
  obtain ⟨body', quoted', rfl⟩ := right
  obtain ⟨after, rfl⟩ := within
  obtain ⟨after', whole⟩ := within'
  have same : body' ++ quoteMark :: after' = body ++ quoteMark :: after := by simpa using whole
  rw [(QuotedBody.append_inj quoted' quoted same).1]

/-- Numbers, marks and words hold no characters but digits, letters and a few others. -/
theorem Matches.forall_mem {pattern : Pattern} {slice : List Char} {P : Char → Prop}
    (matched : pattern.Matches slice) (other : pattern ≠ .blanks) (unquoted : pattern ≠ .quotation)
    (marks : ∀ c ∈ ['-', '+', '.', 'e', 'E', '@', '$', ':', '=', ','], P c)
    (digits : ∀ c, Text.isDigit c = true → P c)
    (letters : ∀ c, '-'.toNat ≤ c.toNat → c.toNat ≤ 'z'.toNat → P c) : ∀ c ∈ slice, P c := by
  intro c member
  cases pattern with
  | blanks => exact (other rfl).elim
  | quotation => exact (unquoted rfl).elim
  | number =>
      obtain ⟨literal, formed, rfl⟩ := matched
      refine NumberLiteral.forall_mem_text_of_digits formed ?_ digits c member
      exact fun d among => marks d (List.mem_append_left ['@', '$', ':', '=', ','] among)
  | mark =>
      obtain ⟨sign, rfl⟩ := matched
      obtain rfl := List.mem_singleton.mp member
      cases sign <;> exact marks _ (by decide)
  | word =>
      obtain ⟨first, rest, rfl, start, inside⟩ := matched
      rcases List.mem_cons.mp member with rfl | later
      · obtain ⟨low, high⟩ := Lexeme.bounds_of_isNameStart start
        exact letters c (Nat.le_trans (by decide) low) high
      · obtain ⟨low, high⟩ :=
          Lexeme.bounds_of_isNameChar (List.all_eq_true.mp inside c later)
        exact letters c low high

/-- Numbers, marks and words hold no blank character. -/
theorem Matches.visible {pattern : Pattern} {slice : List Char} (matched : pattern.Matches slice)
    (other : pattern ≠ .blanks) (unquoted : pattern ≠ .quotation) :
    ∀ c ∈ slice, Text.isBlank c = false :=
  matched.forall_mem other unquoted (List.all_iff_forall_prop.mp (by decide))
    (fun c digit => Text.isBlank_of_isDigit digit)
    fun _ low high => Text.isBlank_eq_false (Nat.lt_of_lt_of_le (by decide) low)
      (Nat.lt_of_le_of_lt high (by decide))

/-- Numbers, marks and words hold no brace. -/
theorem Matches.braceless {pattern : Pattern} {slice : List Char} (matched : pattern.Matches slice)
    (other : pattern ≠ .blanks) (unquoted : pattern ≠ .quotation) :
    ∀ c ∈ slice, c ≠ '{' ∧ c ≠ '}' := by
  refine matched.forall_mem other unquoted (List.all_iff_forall_prop.mp (by decide)) ?_ ?_
  · intro c digit
    exact ⟨NumberLiteral.ne_of_isDigit digit (by decide),
      NumberLiteral.ne_of_isDigit digit (by decide)⟩
  · intro c _ high
    constructor <;> rintro rfl <;> exact absurd high (by decide)

/-- At the ends of a lexeme stand characters that are neither blank nor braces. -/
theorem Matches.ends {pattern : Pattern} {slice : List Char} (matched : pattern.Matches slice)
    (other : pattern ≠ .blanks) :
    ∃ first last, slice.head? = some first ∧ slice.getLast? = some last ∧
      (Text.isBlank first = false ∧ first ≠ '{' ∧ first ≠ '}') ∧
      (Text.isBlank last = false ∧ last ≠ '{' ∧ last ≠ '}') := by
  by_cases quoted : pattern = .quotation
  · subst quoted
    obtain ⟨body, _, rfl⟩ := matched
    exact ⟨quoteMark, quoteMark, rfl, List.getLast?_concat, by decide, by decide⟩
  · have nonempty : slice ≠ [] := by
      obtain ⟨c, rest, rfl, _⟩ := exists_starts matched
      exact List.cons_ne_nil c rest
    have inside := fun c member => And.intro (matched.visible other quoted c member)
      (matched.braceless other quoted c member)
    exact ⟨slice.head nonempty, slice.getLast nonempty, List.head?_eq_some_head nonempty,
      List.getLast?_eq_some_getLast nonempty, inside _ (List.head_mem nonempty),
      inside _ (List.getLast_mem nonempty)⟩

variable {pattern : Pattern} {text slice : List Char}

/-- Since patterns do not compete, the longest slice of any is chosen. -/
theorem chooses_of_longest (matched : pattern.Matches slice) (within : slice <+: text)
    (longest : ∀ other, pattern.Matches other → other <+: text → other.length ≤ slice.length) :
    pattern.Chooses text slice where
  matched := matched
  within := within
  longest := longest
  first := by
    intro earlier before other matched' within'
    have different := List.mem_takeWhile_imp before
    rw [eq_of_within matched within matched' within'] at different
    simp at different

/-- One slice at most is chosen at the start of a text. -/
theorem Chooses.unique {other : Pattern} {slice' : List Char} (left : pattern.Chooses text slice)
    (right : other.Chooses text slice') : pattern = other ∧ slice = slice' := by
  obtain rfl := eq_of_within left.matched left.within right.matched right.within
  refine ⟨rfl, (List.prefix_of_prefix_length_le left.within right.within ?_).eq_of_length ?_⟩
  · exact right.longest slice left.matched left.within
  · exact Nat.le_antisymm (right.longest slice left.matched left.within)
      (left.longest slice' right.matched right.within)

/-- A choice stands in any shorter text that holds the slice. -/
theorem Chooses.of_shorter {shorter : List Char} (chosen : pattern.Chooses text slice)
    (starts : shorter <+: text) (within : slice <+: shorter) : pattern.Chooses shorter slice :=
  chooses_of_longest chosen.matched within fun other matched within' =>
    chosen.longest other matched (within'.trans starts)

/-- What is read without blanks goes no further than the first blank. -/
theorem within_front_of_visible {slice front back : List Char}
    (visible : ∀ c ∈ slice, Text.isBlank c = false) (within : slice <+: front ++ back)
    (ends : ∀ c ∈ back.head?, Text.isBlank c = true) : slice <+: front := by
  rcases List.prefix_or_prefix_of_prefix within (List.prefix_append front back) with
    shorter | ⟨more, rfl⟩
  · exact shorter
  · have beyond : more <+: back := (List.prefix_append_right_inj front).mp within
    cases more with
    | nil => exact ⟨[], by simp⟩
    | cons c more =>
        obtain ⟨after, rfl⟩ := beyond
        cases (visible c (by simp)).symm.trans (ends c rfl)

/-- A choice does not depend on what follows the first blank behind the slice. -/
theorem Chooses.respaced {shared rest other : List Char}
    (chosen : pattern.Chooses (slice ++ (shared ++ rest)) slice) (lexeme : pattern ≠ .blanks)
    (ends : ∀ c ∈ other.head?, Text.isBlank c = true) :
    pattern.Chooses (slice ++ (shared ++ other)) slice := by
  refine chooses_of_longest chosen.matched (List.prefix_append _ _) ?_
  intro found matched within
  by_cases quoted : pattern = .quotation
  · subst quoted
    rw [eq_of_quotations matched within chosen.matched (List.prefix_append _ _)]
  · rw [← List.append_assoc] at within
    have inFront := within_front_of_visible (matched.visible lexeme quoted) within ends
    refine chosen.longest found matched ?_
    rw [← List.append_assoc]
    exact inFront.trans (List.prefix_append _ rest)

/-! ## What a slice is read as -/

/-- A slice of a pattern is read as a lexeme. -/
def Yields : Pattern → List Char → Lexeme → Prop
  | .blanks, _, _ => False
  | .quotation, slice, lexeme => ∃ body, QuotedBody body ∧
      slice = quoteMark :: body ++ [quoteMark] ∧ lexeme = .string (String.ofList (unescape body))
  | .number, slice, lexeme => ∃ literal : NumberLiteral, literal.WellFormed ∧
      slice = literal.text ∧ lexeme = .number literal
  | .mark, slice, lexeme => ∃ sign : Mark, slice = [sign.char] ∧ lexeme = .mark sign
  | .word, slice, lexeme => lexeme = .ofWord slice

theorem Yields.unique {lexeme other : Lexeme} (left : pattern.Yields slice lexeme)
    (right : pattern.Yields slice other) : lexeme = other := by
  cases pattern with
  | blanks => exact left.elim
  | quotation =>
      obtain ⟨body, quoted, rfl, rfl⟩ := left
      obtain ⟨body', quoted', same, rfl⟩ := right
      rw [(QuotedBody.append_inj quoted quoted' (List.cons.inj same).2).1]
  | number =>
      obtain ⟨literal, formed, rfl, rfl⟩ := left
      obtain ⟨literal', formed', same, rfl⟩ := right
      rw [NumberLiteral.text_inj formed formed' same]
  | mark =>
      obtain ⟨sign, rfl, rfl⟩ := left
      obtain ⟨sign', same, rfl⟩ := right
      have injective : ∀ first second : Mark, first.char = second.char → first = second := by
        intro first second
        cases first <;> cases second <;> decide
      rw [injective sign sign' (List.cons.inj same).1]
  | word => exact left.trans right.symm

end Pattern

namespace Lexeme

open Pattern (Matches NoneMatches)

variable {c : Char} {rest text slice : List Char} {lexeme : Lexeme}

/-- A lexeme is read from the slice that is chosen at the start of a text. -/
def TakenFrom (text slice : List Char) (lexeme : Lexeme) : Prop :=
  ∃ pattern : Pattern, pattern.Chooses text slice ∧ pattern.Yields slice lexeme

/-- One lexeme at most is read at the start of a text. -/
theorem TakenFrom.unique {slice' : List Char} {other : Lexeme}
    (left : lexeme.TakenFrom text slice) (right : other.TakenFrom text slice') :
    slice = slice' ∧ lexeme = other := by
  obtain ⟨pattern, chosen, yields⟩ := left
  obtain ⟨pattern', chosen', yields'⟩ := right
  obtain ⟨rfl, rfl⟩ := chosen.unique chosen'
  exact ⟨rfl, yields.unique yields'⟩

/-- A lexeme is read from a shorter text if its slice stands there. -/
theorem TakenFrom.of_shorter {shorter : List Char} (taken : lexeme.TakenFrom text slice)
    (starts : shorter <+: text) (within : slice <+: shorter) : lexeme.TakenFrom shorter slice := by
  obtain ⟨pattern, chosen, yields⟩ := taken
  exact ⟨pattern, chosen.of_shorter starts within, yields⟩

/-- A slice starts and ends with characters that are neither blank nor braces. -/
theorem TakenFrom.ends (taken : lexeme.TakenFrom text slice) :
    ∃ first last, slice.head? = some first ∧ slice.getLast? = some last ∧
      (Text.isBlank first = false ∧ first ≠ '{' ∧ first ≠ '}') ∧
      (Text.isBlank last = false ∧ last ≠ '{' ∧ last ≠ '}') := by
  obtain ⟨pattern, chosen, yields⟩ := taken
  apply chosen.matched.ends
  rintro rfl
  exact yields

/-- A lexeme starts with a character that is not blank. -/
theorem TakenFrom.exists_visible (taken : lexeme.TakenFrom text slice) :
    ∃ c tail, slice = c :: tail ∧ Text.isBlank c = false := by
  obtain ⟨c, _, first, _, ⟨visible, _⟩, _⟩ := taken.ends
  obtain ⟨tail, rfl⟩ := List.head?_eq_some_iff.mp first
  exact ⟨c, tail, rfl, visible⟩

/-- A lexeme does not depend on what follows the first blank behind its slice. -/
theorem TakenFrom.respaced {shared other : List Char}
    (taken : lexeme.TakenFrom (slice ++ (shared ++ rest)) slice)
    (ends : ∀ c ∈ other.head?, Text.isBlank c = true) :
    lexeme.TakenFrom (slice ++ (shared ++ other)) slice := by
  obtain ⟨pattern, chosen, yields⟩ := taken
  refine ⟨pattern, chosen.respaced ?_ ends, yields⟩
  rintro rfl
  exact yields

/-- A number is read from its text only. -/
theorem eq_text_of_takenFrom {literal : NumberLiteral}
    (taken : (Lexeme.number literal).TakenFrom text slice) :
    literal.WellFormed ∧ slice = literal.text := by
  obtain ⟨pattern, _, yields⟩ := taken
  cases pattern with
  | blanks => exact yields.elim
  | quotation =>
      obtain ⟨_, _, _, other⟩ := yields
      cases other
  | number =>
      obtain ⟨_, formed, same, number⟩ := yields
      obtain rfl := Lexeme.number.inj number
      exact ⟨formed, same⟩
  | mark =>
      obtain ⟨_, _, other⟩ := yields
      cases other
  | word =>
      have word : Lexeme.number literal = ofWord slice := yields
      unfold ofWord at word
      split at word <;> cases word

/-- A number is read from its text. -/
theorem takenFrom_text {literal : NumberLiteral} (formed : literal.WellFormed) :
    (Lexeme.number literal).TakenFrom literal.text literal.text := by
  refine ⟨.number, Pattern.chooses_of_longest ⟨literal, formed, rfl⟩ List.prefix_rfl ?_,
    literal, formed, rfl, rfl⟩
  intro other _ within
  exact within.length_le

/-- The text of a lexeme is its slice. That of a quoted text is what stands between the quote at the
start of the slice and the next one that closes, once backslashes are removed. -/
def Shows (slice : List Char) : Lexeme → Prop
  | .string text => ∃ body, slice = quoteMark :: body ++ [quoteMark] ∧ NextQuoteCloses body ∧
      text = String.ofList (unescape body)
  | lexeme => lexeme.text.toList = slice

/-- The lexeme of a word has the word as text. -/
theorem ofWord_shows (word : List Char) : (ofWord word).Shows word := by
  unfold ofWord
  split
  · rename_i same
    exact (congrArg String.toList same).symm.trans String.toList_ofList
  · rename_i same
    exact (congrArg String.toList same).symm.trans String.toList_ofList
  · exact String.toList_ofList

/-- A lexeme that is read shows its slice. -/
theorem TakenFrom.shows (taken : lexeme.TakenFrom text slice) : lexeme.Shows slice := by
  obtain ⟨pattern, _, yields⟩ := taken
  cases pattern with
  | blanks => exact yields.elim
  | quotation =>
      obtain ⟨body, quoted, rfl, rfl⟩ := yields
      exact ⟨body, rfl, quotedBody_iff.mp quoted, rfl⟩
  | number =>
      obtain ⟨literal, _, rfl, rfl⟩ := yields
      exact String.toList_ofList
  | mark =>
      obtain ⟨sign, rfl, rfl⟩ := yields
      exact String.toList_singleton sign.char
  | word =>
      obtain rfl := yields
      exact ofWord_shows slice

/-! ## Reading -/

/-- What is wrong with a character that starts no lexeme. -/
def refusal (c : Char) : SyntaxFault :=
  if c = quoteMark then .unterminatedString else .unexpectedCharacter c

/-- What is read is the lexeme of the slice that is chosen. -/
theorem takenFrom_of_read {reading : Reading} (found : read c rest = .ok reading) :
    reading.lexeme.TakenFrom (c :: rest) reading.slice := by
  unfold read readQuoted readWord at found
  split at found
  · rename_i quote
    subst quote
    split at found
    · rename_i body after split
      obtain rfl := Except.ok.inj found
      obtain ⟨rfl, quoted⟩ := splitQuoted?_eq_some_iff.mp split
      refine ⟨.quotation, Pattern.chooses_of_longest ⟨body, quoted, rfl⟩ ⟨after, by simp⟩ ?_,
        body, quoted, rfl, rfl⟩
      intro other matched within
      have starts : quoteMark :: body ++ [quoteMark] <+:
          quoteMark :: (body ++ quoteMark :: after) := ⟨after, by simp⟩
      rw [Pattern.eq_of_quotations matched within ⟨body, quoted, rfl⟩ starts]
    · cases found
  · split at found
    · rename_i literal after split
      obtain rfl := Except.ok.inj found
      obtain ⟨formed, whole, longest⟩ := NumberLiteral.split?_eq_some_iff.mp split
      refine ⟨.number, Pattern.chooses_of_longest ⟨literal, formed, rfl⟩ ⟨after, whole.symm⟩ ?_,
        literal, formed, rfl, rfl⟩
      rintro other ⟨literal', formed', rfl⟩ starts
      exact longest literal' formed' starts
    · split at found
      · rename_i sign known
        obtain rfl := Except.ok.inj found
        obtain rfl := Mark.char_of_ofChar? known
        refine ⟨.mark, Pattern.chooses_of_longest ⟨sign, rfl⟩ ⟨rest, rfl⟩ ?_, sign, rfl, rfl⟩
        rintro other ⟨sign', rfl⟩ _
        exact Nat.le_refl 1
      · split at found
        · rename_i start
          obtain rfl := Except.ok.inj found
          have inside : (rest.takeWhile isNameChar).all isNameChar = true :=
            List.all_eq_true.mpr fun _ member => List.mem_takeWhile_imp member
          refine ⟨.word, Pattern.chooses_of_longest ⟨c, _, rfl, start, inside⟩
            ⟨rest.dropWhile isNameChar, ?_⟩ ?_, rfl⟩
          · rw [List.cons_append, List.takeWhile_append_dropWhile]
          · rintro other ⟨first, run, rfl, _, inside'⟩ starts
            obtain ⟨_, after, rfl⟩ := List.cons_prefix_cons.mp starts
            rw [List.takeWhile_append_of_pos (List.all_eq_true.mp inside')]
            simp
        · cases found

/-- Where nothing is read no pattern matches. -/
theorem noneMatches_of_read {fault : SyntaxFault} (visible : Text.isBlank c = false)
    (failed : read c rest = .error fault) : NoneMatches (c :: rest) ∧ fault = refusal c := by
  unfold read readQuoted readWord at failed
  split at failed
  · rename_i quote
    subst quote
    split at failed
    · cases failed
    · rename_i unclosed
      refine ⟨?_, (Except.error.inj failed).symm⟩
      intro pattern slice matched within
      have same : Pattern.quotation = pattern :=
        Pattern.eq_of_starts rfl (Pattern.starts_of_within matched within)
      subst same
      obtain ⟨body, quoted, rfl⟩ := matched
      obtain ⟨after, whole⟩ := within
      have split : splitQuoted? rest = some (body, after) :=
        splitQuoted?_eq_some_iff.mpr ⟨by simpa using whole.symm, quoted⟩
      cases unclosed.symm.trans split
  · rename_i unquoted
    split at failed
    · cases failed
    · rename_i noNumber
      split at failed
      · cases failed
      · rename_i noMark
        split at failed
        · cases failed
        · rename_i noWord
          refine ⟨?_, (Except.error.inj failed).symm.trans (if_neg unquoted).symm⟩
          intro pattern slice matched within
          have start := Pattern.starts_of_within matched within
          cases pattern with
          | blanks => cases visible.symm.trans start
          | quotation => exact unquoted (of_decide_eq_true start)
          | number =>
              obtain ⟨literal, formed, rfl⟩ := matched
              exact NumberLiteral.split?_eq_none_iff.mp noNumber literal formed within
          | mark => simp [Pattern.starts, noMark] at start
          | word => exact noWord start

/-- **Reading a lexeme.** What is read is the lexeme of the slice that is chosen at the start of the
text. -/
theorem read_eq_ok_iff {after : List Char} :
    read c rest = .ok ⟨lexeme, slice, after⟩ ↔
      c :: rest = slice ++ after ∧ lexeme.TakenFrom (c :: rest) slice := by
  constructor
  · intro found
    exact ⟨(read_covers found).whole, takenFrom_of_read found⟩
  · rintro ⟨whole, taken⟩
    obtain ⟨d, tail, rfl, visible⟩ := taken.exists_visible
    obtain ⟨rfl, _⟩ := List.cons.inj whole
    cases found : read c rest with
    | error fault =>
        obtain ⟨pattern, chosen, _⟩ := taken
        exact ((noneMatches_of_read visible found).1 pattern _ chosen.matched chosen.within).elim
    | ok reading =>
        obtain ⟨same, rfl⟩ := taken.unique (takenFrom_of_read found)
        have left := (read_covers found).whole
        rw [whole, same] at left
        obtain rfl := List.append_cancel_left left
        rw [same]

/-- Nothing is read exactly where no pattern matches, except for a blank character. -/
theorem read_eq_error_iff {fault : SyntaxFault} (visible : Text.isBlank c = false) :
    read c rest = .error fault ↔ NoneMatches (c :: rest) ∧ fault = refusal c := by
  constructor
  · exact noneMatches_of_read visible
  · rintro ⟨none, rfl⟩
    cases found : read c rest with
    | error fault => rw [(noneMatches_of_read visible found).2]
    | ok reading =>
        obtain ⟨pattern, chosen, _⟩ := takenFrom_of_read found
        exact (none pattern _ chosen.matched chosen.within).elim

end Lexeme

end EditableTemplate
