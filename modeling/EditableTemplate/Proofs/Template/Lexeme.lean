import EditableTemplate.Proofs.Number.Literal
import EditableTemplate.Template.Token

/-!
# Writing lexemes

Every text can be written between quotes: a backslash before each backslash, quote and brace is all
that it takes (`splitQuoted?_escape`, `unescape_escape`). The other lexemes are written as they are,
with blanks around the marks that separate words. A row in which words are separated is read back
as it was written (`lexes_form`).
-/

namespace EditableTemplate

/-- Whether a character is written with a backslash before it. -/
def isEscaped (c : Char) : Bool :=
  c = '\\' || c = quoteMark || c = '{' || c = '}'

/-- A text as it is written between quotes. -/
def escape (text : List Char) : List Char :=
  text.flatMap fun c => if isEscaped c then ['\\', c] else [c]

theorem escape_cons (c : Char) (rest : List Char) :
    escape (c :: rest) = (if isEscaped c then ['\\', c] else [c]) ++ escape rest := by
  rw [escape, List.flatMap_cons, escape]

/-- A character that is escaped stands for itself after a backslash. -/
theorem unescapeChar_of_isEscaped {c : Char} (escaped : isEscaped c = true) :
    unescapeChar c = c := by
  unfold unescapeChar
  split
  · cases escaped
  · cases escaped
  · rfl

theorem unescape_cons {c : Char} (plain : c ≠ '\\') (rest : List Char) :
    unescape (c :: rest) = c :: unescape rest := by
  rw [unescape]
  · exact fun same => (plain same).elim
  · exact fun _ _ same => (plain same).elim

/-- A character other than a quote and a backslash does not end a quoted text. -/
theorem splitQuoted?_cons {c : Char} (plain : c ≠ '\\') (inside : c ≠ quoteMark)
    (rest : List Char) :
    splitQuoted? (c :: rest) = (splitQuoted? rest).map fun (body, after) => (c :: body, after) := by
  rw [splitQuoted?, if_neg inside]
  · exact fun same => (plain same).elim
  · exact fun _ _ same => (plain same).elim

/-- What is written between quotes stands for the text. -/
theorem unescape_escape (text : List Char) : unescape (escape text) = text := by
  induction text with
  | nil => rfl
  | cons c rest ih =>
      rw [escape_cons]
      by_cases escaped : isEscaped c = true
      · rw [if_pos escaped, List.cons_append, List.singleton_append, unescape, ih,
          unescapeChar_of_isEscaped escaped]
      · have plain : c ≠ '\\' := by
          rintro rfl
          exact escaped rfl
        rw [if_neg escaped, List.singleton_append, unescape_cons plain, ih]

/-- What is written between quotes ends at the closing quote. -/
theorem splitQuoted?_escape (text after : List Char) :
    splitQuoted? (escape text ++ quoteMark :: after) = some (escape text, after) := by
  induction text with
  | nil => rfl
  | cons c rest ih =>
      rw [escape_cons]
      by_cases escaped : isEscaped c = true
      · -- the character is passed over with its backslash, even if it is a quote
        rw [if_pos escaped, List.append_assoc, List.cons_append, List.singleton_append,
          splitQuoted?, ih]
        rfl
      · have plain : c ≠ '\\' := by
          rintro rfl
          exact escaped rfl
        have inside : c ≠ quoteMark := by
          rintro rfl
          exact escaped (by decide)
        rw [if_neg escaped, List.append_assoc, List.singleton_append,
          splitQuoted?_cons plain inside, ih]
        rfl

/-- A text that the grammar takes for a name: a word of its characters that is no truth value. -/
structure IsName (word : String) : Prop where
  shape : ∃ first rest, word.toList = first :: rest ∧ isNameStart first = true ∧
    rest.all isNameChar = true
  not_true : word ≠ "true"
  not_false : word ≠ "false"

/-- A mark as it is written. -/
def Mark.form : Mark → List Char
  | .atSign => ['@']
  | .dollar => ['$']
  | .colon => [':', ' ']
  | .equals => [' ', '=', ' ']
  | .comma => [',', ' ']

namespace Lexeme

/-- A lexeme as it is written. -/
def form : Lexeme → List Char
  | .string text => quoteMark :: escape text.toList ++ [quoteMark]
  | .number literal => literal.text
  | .boolean value => Value.truth value
  | .name word => word.toList
  | .mark sign => sign.form

/-- A lexeme is read as it is written: its name is one, and its number is in the usual digits. -/
def HasForm : Lexeme → Prop
  | .number literal => literal.HasForm
  | .name word => IsName word
  | _ => True

/-- Whether a lexeme goes on as long as its characters do. -/
def isWord : Lexeme → Bool
  | .number _ => true
  | .boolean _ => true
  | .name _ => true
  | _ => false

/-- Whether a lexeme ends the word before it. -/
def separates : Lexeme → Bool
  | .mark .colon => true
  | .mark .equals => true
  | .mark .comma => true
  | _ => false

/-- Two lexemes can stand next to each other. -/
def MayPrecede (first second : Lexeme) : Prop :=
  first.isWord = true → second.separates = true

/-- A word can not go on with what follows. -/
def Stops (rest : List Char) : Prop :=
  ∀ c ∈ rest.head?, c = ' ' ∨ c = ':' ∨ c = ','

/-- A lexeme that separates ends the word before it. -/
theorem stops_form_append {lexeme : Lexeme} (separates : lexeme.separates = true)
    (rest : List Char) : Stops (lexeme.form ++ rest) := by
  intro c first
  unfold Lexeme.separates at separates
  split at separates
  · right; left
    exact (Option.some.inj first).symm
  · left
    exact (Option.some.inj first).symm
  · right; right
    exact (Option.some.inj first).symm
  · cases separates

theorem Stops.ends {rest : List Char} (stops : Stops rest) : NumberLiteral.Ends rest := by
  intro c first
  rcases stops c first with rfl | rfl | rfl <;> decide

/-- What ends a word does not start with a character of names. -/
theorem Stops.isNameChar_eq_false {rest : List Char} (stops : Stops rest) :
    ∀ c ∈ rest.head?, isNameChar c = false := by
  intro c first
  rcases stops c first with rfl | rfl | rfl <;> decide

/-- The characters that start names lie between the letters A and z. -/
theorem bounds_of_isNameStart {c : Char} (start : isNameStart c = true) :
    'A'.toNat ≤ c.toNat ∧ c.toNat ≤ 'z'.toNat := by
  rcases Bool.or_eq_true_iff.mp start with alpha | underscore
  · rcases Bool.or_eq_true_iff.mp alpha with upper | lower
    · obtain ⟨low, high⟩ := of_decide_eq_true upper
      exact ⟨UInt32.le_iff_toNat_le.mp low,
        Nat.le_trans (UInt32.le_iff_toNat_le.mp high) (by decide)⟩
    · obtain ⟨low, high⟩ := Bool.and_eq_true_iff.mp lower
      exact ⟨Nat.le_trans (by decide) (UInt32.le_iff_toNat_le.mp (of_decide_eq_true low)),
        UInt32.le_iff_toNat_le.mp (of_decide_eq_true high)⟩
  · obtain rfl := of_decide_eq_true underscore
    decide

theorem bounds_of_isNameChar {c : Char} (inside : isNameChar c = true) :
    '-'.toNat ≤ c.toNat ∧ c.toNat ≤ 'z'.toNat := by
  simp only [isNameChar, Bool.or_eq_true, decide_eq_true_eq] at inside
  rcases inside with (alphanum | rfl) | rfl
  · rcases Bool.or_eq_true_iff.mp alphanum with alpha | digit
    · have start : isNameStart c = true := by simp [isNameStart, alpha]
      obtain ⟨low, high⟩ := bounds_of_isNameStart start
      exact ⟨Nat.le_trans (by decide) low, high⟩
    · obtain ⟨low, high⟩ := Char.isDigit_iff_toNat.mp digit
      exact ⟨Nat.le_trans (by decide) low, Nat.le_trans high (by decide)⟩
  · decide
  · decide

/-- No digit starts a name. -/
theorem isDigit_of_isNameStart {c : Char} (start : isNameStart c = true) :
    Text.isDigit c = false := by
  obtain ⟨low, high⟩ := bounds_of_isNameStart start
  apply Text.isDigit_eq_false
  · apply Bool.eq_false_iff.mpr
    intro digit
    have above := (Char.isDigit_iff_toNat.mp digit).2
    exact absurd (Nat.le_trans low above) (by decide)
  · exact Nat.lt_of_le_of_lt high (by decide)

/-- No mark starts a name. -/
theorem ofChar?_eq_none {c : Char} (start : isNameStart c = true) : Mark.ofChar? c = none := by
  apply List.find?_eq_none.mpr
  intro sign _ same
  obtain rfl := of_decide_eq_true same
  cases sign <;> cases start

/-- A word is read as far as its characters go. -/
theorem read_word {c : Char} {run rest : List Char} (start : isNameStart c = true)
    (inside : run.all isNameChar = true) (stops : Stops rest) :
    Lexeme.read c (run ++ rest) = .ok ⟨ofWord (c :: run), c :: run, rest⟩ := by
  have unquoted : c ≠ quoteMark := by
    rintro rfl
    cases start
  have unsigned : c ≠ '-' := by
    rintro rfl
    cases start
  have other := isDigit_of_isNameStart start
  obtain ⟨taken, left⟩ := Text.takeWhile_run (List.all_eq_true.mp inside)
    stops.isNameChar_eq_false
  rw [Lexeme.read, if_neg unquoted, NumberLiteral.split?_eq_none unsigned other]
  simp only [readWord, ofChar?_eq_none start, start, taken, left, if_true]

/-- A name is taken for a name. -/
theorem ofWord_name {word : String} (name : IsName word) : ofWord word.toList = .name word := by
  unfold ofWord
  rw [String.ofList_toList]
  split
  · exact (name.not_true rfl).elim
  · exact (name.not_false rfl).elim
  · rfl

/-- What is taken for a name is one. -/
theorem isName_of_ofWord {first : Char} {rest : List Char} {word : String}
    (start : isNameStart first = true) (inside : rest.all isNameChar = true)
    (named : ofWord (first :: rest) = .name word) : IsName word := by
  unfold ofWord at named
  split at named
  · cases named
  · cases named
  · rename_i notTrue notFalse
    obtain rfl := Lexeme.name.inj named
    exact ⟨⟨first, rest, String.toList_ofList, start, inside⟩, notTrue, notFalse⟩

/-- A name that is read is one. -/
theorem isName_of_read {c : Char} {rest : List Char} {reading : Reading} {word : String}
    (found : Lexeme.read c rest = .ok reading) (named : reading.lexeme = .name word) :
    IsName word := by
  unfold Lexeme.read readQuoted readWord at found
  split at found
  · split at found
    · obtain rfl := Except.ok.inj found
      cases named
    · cases found
  · split at found
    · obtain rfl := Except.ok.inj found
      cases named
    · split at found
      · obtain rfl := Except.ok.inj found
        cases named
      · split at found
        · rename_i start
          obtain rfl := Except.ok.inj found
          have inside : (rest.takeWhile isNameChar).all isNameChar = true :=
            List.all_eq_true.mpr fun _ member => List.mem_takeWhile_imp member
          exact isName_of_ofWord start inside named
        · cases found

/-- A text between quotes is read back. -/
theorem read_string (text : String) (rest : List Char) :
    Lexeme.read quoteMark (escape text.toList ++ quoteMark :: rest) =
      .ok ⟨.string text, quoteMark :: escape text.toList ++ [quoteMark], rest⟩ := by
  rw [Lexeme.read, if_pos rfl]
  simp only [readQuoted, splitQuoted?_escape, unescape_escape, String.ofList_toList]

theorem read_mark (sign : Mark) (rest : List Char) :
    Lexeme.read sign.char rest = .ok ⟨.mark sign, [sign.char], rest⟩ := by
  have unquoted : sign.char ≠ quoteMark := by cases sign <;> decide
  have unsigned : sign.char ≠ '-' := by cases sign <;> decide
  have other : Text.isDigit sign.char = false := by cases sign <;> decide
  have known : Mark.ofChar? sign.char = some sign := by cases sign <;> decide
  rw [Lexeme.read, if_neg unquoted, NumberLiteral.split?_eq_none unsigned other]
  simp only [readWord, known]

/-- The characters of words lie between the plus and the letter z. -/
theorem bounds_of_mem_form {lexeme : Lexeme} (word : lexeme.isWord = true)
    (written : lexeme.HasForm) {c : Char} (member : c ∈ lexeme.form) :
    '+'.toNat ≤ c.toNat ∧ c.toNat ≤ 'z'.toNat := by
  have inName : ∀ {c}, isNameChar c = true → '+'.toNat ≤ c.toNat ∧ c.toNat ≤ 'z'.toNat := by
    intro c inside
    obtain ⟨low, high⟩ := bounds_of_isNameChar inside
    exact ⟨Nat.le_trans (by decide) low, high⟩
  cases lexeme with
  | string text => cases word
  | mark sign => cases word
  | number literal => exact NumberLiteral.bounds_of_mem_text written member
  | boolean value =>
      have inside : (Value.truth value).all isNameChar = true := by cases value <;> rfl
      exact inName (List.all_eq_true.mp inside c member)
  | name text =>
      obtain ⟨first, rest, characters, start, inside⟩ := written.shape
      rw [form, characters] at member
      rcases List.mem_cons.mp member with rfl | member
      · obtain ⟨low, high⟩ := bounds_of_isNameStart start
        exact ⟨Nat.le_trans (by decide) low, high⟩
      · exact inName (List.all_eq_true.mp inside c member)

/-- No character of a word is blank. -/
theorem isBlank_of_mem_form {lexeme : Lexeme} (word : lexeme.isWord = true)
    (written : lexeme.HasForm) {c : Char} (member : c ∈ lexeme.form) :
    Text.isBlank c = false := by
  obtain ⟨low, high⟩ := bounds_of_mem_form word written member
  apply Text.isBlank_eq_false
  · exact Nat.lt_of_lt_of_le (by decide) low
  · exact Nat.lt_of_le_of_lt high (by decide)

/-- A word is read where it ends. -/
theorem exists_read_form {lexeme : Lexeme} (word : lexeme.isWord = true)
    (written : lexeme.HasForm) {rest : List Char} (stops : Stops rest) :
    ∃ c tail, lexeme.form = c :: tail ∧
      Lexeme.read c (tail ++ rest) = .ok ⟨lexeme, lexeme.form, rest⟩ := by
  cases lexeme with
  | string text => cases word
  | mark sign => cases word
  | number literal =>
      have split := NumberLiteral.split?_text written.wellFormed stops.ends
      cases characters : literal.text with
      | nil =>
          have nonempty := written.nonempty
          simp [NumberLiteral.text, nonempty] at characters
      | cons c tail =>
          have member : c ∈ literal.text := by simp [characters]
          have unquoted : c ≠ quoteMark := by
            rintro rfl
            exact absurd (NumberLiteral.bounds_of_mem_text written member).1 (by decide)
          rw [characters, List.cons_append] at split
          refine ⟨c, tail, characters, ?_⟩
          rw [Lexeme.read, if_neg unquoted, split]
          rfl
  | boolean value =>
      cases value with
      | true => exact ⟨'t', ['r', 'u', 'e'], rfl, read_word rfl rfl stops⟩
      | false => exact ⟨'f', ['a', 'l', 's', 'e'], rfl, read_word rfl rfl stops⟩
  | name text =>
      obtain ⟨first, tail, characters, start, inside⟩ := written.shape
      refine ⟨first, tail, characters, ?_⟩
      rw [read_word start inside stops, ← characters, ofWord_name written]
      rfl

/-- Only separating marks are written with blanks at their ends. -/
theorem tight_form {lexeme : Lexeme} (written : lexeme.HasForm)
    (other : lexeme.separates = false) : Text.Tight lexeme.form := by
  cases word : lexeme.isWord with
  | true =>
      have stops : Stops [] := by
        intro c first
        cases first
      obtain ⟨c, tail, characters, _⟩ := exists_read_form word written stops
      apply Text.tight_of_visible
      · rw [characters]
        exact List.cons_ne_nil c tail
      · exact fun _ member => isBlank_of_mem_form word written member
  | false =>
      have quote : Text.isBlank quoteMark = false := by decide
      cases lexeme with
      | string text => exact ⟨⟨quoteMark, rfl, quote⟩, ⟨quoteMark, List.getLast?_concat, quote⟩⟩
      | mark sign =>
          cases sign with
          | atSign => exact ⟨⟨'@', rfl, by decide⟩, ⟨'@', rfl, by decide⟩⟩
          | dollar => exact ⟨⟨'$', rfl, by decide⟩, ⟨'$', rfl, by decide⟩⟩
          | colon => cases other
          | equals => cases other
          | comma => cases other
      | number literal => cases word
      | boolean value => cases word
      | name text => cases word

end Lexeme

end EditableTemplate
