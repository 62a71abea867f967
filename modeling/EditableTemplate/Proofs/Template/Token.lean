import EditableTemplate.Proofs.Except
import EditableTemplate.Proofs.Template.Lexeme
import EditableTemplate.Proofs.Template.Span

/-!
# Reading rows of lexemes back

A row is written lexeme by lexeme. If every lexeme has a form and every word of the row is followed
by a separating mark, the tokens of what was written are the lexemes (`TokenRow.lexes_form`). In
what was written every brace comes right after a backslash (`shielded_row`), so a row never opens or
closes a placeholder, whatever texts are quoted in it. Rows are put together from a start that can
stand alone (`Legible`) and parts that start with a separating mark (`Continuation`).
-/

namespace EditableTemplate

namespace TokenRow

/-- One step of reading tokens: past a blank character, or past a lexeme. -/
theorem readFrom_cons (position : Int) (c : Char) (rest : List Char) :
    readFrom position (c :: rest) =
      if Text.isBlank c then readFrom (position + 1) rest
      else match Lexeme.read c rest with
        | .error fault => .error (.malformed fault position)
        | .ok reading => (readFrom (position + reading.slice.length) reading.rest).map fun row =>
          { row with tokens := ⟨reading.lexeme, position⟩ :: row.tokens } := by
  rw [readFrom]
  split
  · rfl
  · split
    · rename_i fault failed
      rw [failed]
    · rename_i reading found
      rw [found]
      rfl

/-- The tokens of a text are the lexemes, wherever the text starts. -/
def Lexes (text : List Char) (lexemes : List Lexeme) : Prop :=
  ∀ position, ∃ row, readFrom position text = .ok row ∧ row.lexemes = lexemes

variable {c : Char} {rest : List Char} {lexemes : List Lexeme}

theorem lexes_nil : Lexes [] [] := by
  intro position
  exact ⟨⟨[], position⟩, by rw [readFrom], rfl⟩

/-- A blank in front adds no token. -/
theorem Lexes.blank (blank : Text.isBlank c = true) (lexes : Lexes rest lexemes) :
    Lexes (c :: rest) lexemes := by
  intro position
  obtain ⟨row, read, same⟩ := lexes (position + 1)
  refine ⟨row, ?_, same⟩
  rw [readFrom_cons, if_pos blank, read]

theorem Lexes.lexeme {lexeme : Lexeme} {slice after : List Char}
    (visible : Text.isBlank c = false) (found : Lexeme.read c rest = .ok ⟨lexeme, slice, after⟩)
    (lexes : Lexes after lexemes) : Lexes (c :: rest) (lexeme :: lexemes) := by
  intro position
  obtain ⟨row, read, same⟩ := lexes (position + slice.length)
  refine ⟨{ row with tokens := ⟨lexeme, position⟩ :: row.tokens }, ?_, congrArg _ same⟩
  rw [readFrom_cons, if_neg (Bool.eq_false_iff.mp visible), found]
  simp only [read]
  rfl

/-- A lexeme is read back in front of what was read. -/
theorem lexes_form_append {lexeme : Lexeme} (written : lexeme.HasForm)
    (stops : lexeme.isWord = true → Lexeme.Stops rest) (lexes : Lexes rest lexemes) :
    Lexes (lexeme.form ++ rest) (lexeme :: lexemes) := by
  cases word : lexeme.isWord with
  | true =>
      obtain ⟨c, tail, characters, read⟩ := Lexeme.exists_read_form word written (stops word)
      have member : c ∈ lexeme.form := by simp [characters]
      have visible := Lexeme.isBlank_of_mem_form word written member
      rw [characters, List.cons_append]
      exact .lexeme visible read lexes
  | false =>
      have space : Text.isBlank ' ' = true := by decide
      cases lexeme with
      | string text =>
          have read := Lexeme.read_string text rest
          rw [Lexeme.form, List.cons_append, List.cons_append, List.append_assoc]
          exact .lexeme (by decide) read lexes
      | mark sign =>
          have visible : Text.isBlank sign.char = false := by cases sign <;> decide
          cases sign with
          | atSign => exact .lexeme visible (Lexeme.read_mark .atSign rest) lexes
          | dollar => exact .lexeme visible (Lexeme.read_mark .dollar rest) lexes
          | colon =>
              exact .lexeme visible (Lexeme.read_mark .colon (' ' :: rest)) (lexes.blank space)
          | comma =>
              exact .lexeme visible (Lexeme.read_mark .comma (' ' :: rest)) (lexes.blank space)
          | equals =>
              have read := Lexeme.read_mark .equals (' ' :: rest)
              exact .blank space (.lexeme visible read (lexes.blank space))
      | number literal => cases word
      | boolean value => cases word
      | name text => cases word

/-- **Rows are read back.** The tokens of a row that was written are its lexemes. -/
theorem lexes_form {row : List Lexeme} (written : ∀ lexeme ∈ row, lexeme.HasForm)
    (parted : row.IsChain Lexeme.MayPrecede) : Lexes (row.flatMap Lexeme.form) row := by
  induction row with
  | nil => exact lexes_nil
  | cons lexeme rest ih =>
      have tail := ih (fun other member => written other (List.mem_cons_of_mem lexeme member))
        (List.IsChain.tail parted)
      -- only a word could run on into what follows
      have stops : lexeme.isWord = true → Lexeme.Stops (rest.flatMap Lexeme.form) := by
        intro word
        cases rest with
        | nil =>
            intro c first
            cases first
        | cons next rest =>
            have separates := (List.isChain_cons_cons.mp parted).1 word
            exact Lexeme.stops_form_append separates _
      rw [List.flatMap_cons]
      exact lexes_form_append (written lexeme (List.mem_cons_self ..)) stops tail

/-- The names among the tokens of a text are names. -/
theorem isName_of_mem_lexemes {position : Int} {text : List Char} {row : TokenRow} {word : String}
    (read : readFrom position text = .ok row) (member : .name word ∈ row.lexemes) :
    IsName word := by
  fun_induction readFrom position text generalizing row with
  | case1 position =>
      obtain rfl := Except.ok.inj read
      cases member
  | case2 position c rest blank ih => exact ih read member
  | case3 position c rest visible fault failed => cases read
  | case4 position c rest visible reading found ih =>
      obtain ⟨after, others, ⟨⟩⟩ := Except.bind_eq_ok.mp read
      rcases List.mem_cons.mp member with first | later
      · exact Lexeme.isName_of_read found first.symm
      · exact ih others later

end TokenRow

/-- Every brace in a text that follows a blank comes right after a backslash. -/
def Shielded (text : List Char) : Prop :=
  (' ' :: text).IsChain fun first second => second = '{' ∨ second = '}' → first = '\\'

theorem shielded_nil : Shielded [] := .singleton ' '

/-- Shielded texts make a shielded text. -/
theorem Shielded.append {first second : List Char} (before : Shielded first)
    (after : Shielded second) : Shielded (first ++ second) := by
  unfold Shielded at before after ⊢
  rw [← List.cons_append]
  refine before.append after.tail ?_
  intro _ _ c leads brace
  cases second with
  | nil => cases leads
  | cons start rest =>
      -- the second text may start with no brace, since none follows the blank
      obtain rfl := Option.some.inj leads
      exact absurd ((List.isChain_cons_cons.mp after).1 brace) (by decide)

/-- A text without braces is shielded. -/
theorem shielded_of_all {text : List Char}
    (plain : text.all (fun c => c ≠ '{' && c ≠ '}') = true) : Shielded text := by
  induction text with
  | nil => exact shielded_nil
  | cons c rest ih =>
      simp only [List.all_cons, Bool.and_eq_true, decide_eq_true_eq] at plain
      obtain ⟨⟨notOpen, notClose⟩, others⟩ := plain
      have first : Shielded [c] := by
        apply List.isChain_pair.mpr
        intro brace
        exact (brace.elim notOpen notClose).elim
      exact first.append (ih (by simpa using others))

/-- An escaped text is shielded. -/
theorem shielded_escape (text : List Char) : Shielded (escape text) := by
  induction text with
  | nil => exact shielded_nil
  | cons c rest ih =>
      rw [escape_cons]
      apply Shielded.append _ ih
      by_cases escaped : isEscaped c = true
      · rw [if_pos escaped]
        refine .cons_cons ?_ (List.isChain_pair.mpr fun _ => rfl)
        intro brace
        cases brace <;> contradiction
      · rw [if_neg escaped]
        apply shielded_of_all
        simp only [isEscaped, Bool.or_eq_true, decide_eq_true_eq, not_or] at escaped
        simp [escaped]

/-- A lexeme that is read as it is written is shielded. -/
theorem Lexeme.shielded_form {lexeme : Lexeme} (written : lexeme.HasForm) :
    Shielded lexeme.form := by
  cases word : lexeme.isWord with
  | true =>
      apply shielded_of_all
      apply List.all_eq_true.mpr
      intro c member
      have high := (Lexeme.bounds_of_mem_form word written member).2
      simp only [Bool.and_eq_true, decide_eq_true_eq]
      constructor <;> rintro rfl <;> exact absurd high (by decide)
  | false =>
      cases lexeme with
      | string text =>
          have quote : Shielded [quoteMark] := shielded_of_all rfl
          exact (quote.append (shielded_escape text.toList)).append quote
      | mark sign => cases sign <;> exact shielded_of_all rfl
      | number literal => cases word
      | boolean value => cases word
      | name text => cases word

theorem shielded_row {row : List Lexeme} (written : ∀ lexeme ∈ row, lexeme.HasForm) :
    Shielded (row.flatMap Lexeme.form) := by
  induction row with
  | nil => exact shielded_nil
  | cons lexeme rest ih =>
      have tail := ih fun other member => written other (List.mem_cons_of_mem lexeme member)
      rw [List.flatMap_cons]
      exact (Lexeme.shielded_form (written lexeme (List.mem_cons_self ..))).append tail

/-- A brace that is shielded does not follow another. -/
theorem Shielded.unpaired {text : List Char} {mark : Char} (shielded : Shielded text)
    (brace : mark = '{' ∨ mark = '}') : Unpaired mark (' ' :: text) := by
  refine List.IsChain.imp ?_ shielded
  rintro first second after ⟨rfl, rfl⟩
  have backslash := after brace
  rw [backslash] at brace
  cases brace <;> contradiction

/-- A shielded text between blanks neither opens nor closes a placeholder. -/
theorem Shielded.between_blanks {text : List Char} (shielded : Shielded text) :
    Unpaired '{' (' ' :: (text ++ [' '])) ∧ Unpaired '}' (' ' :: (text ++ [' ']) ++ ['}']) := by
  have padded : Shielded (text ++ [' ']) := shielded.append (shielded_of_all rfl)
  have last : (' ' :: (text ++ [' '])).getLast? ≠ some '}' := by
    rw [← List.cons_append, List.getLast?_concat]
    decide
  exact ⟨padded.unpaired (.inl rfl), (padded.unpaired (.inr rfl)).concat last⟩

/-- A row that can be read back from between blanks. -/
structure Legible (row : List Lexeme) : Prop where
  written : ∀ lexeme ∈ row, lexeme.HasForm
  parted : row.IsChain Lexeme.MayPrecede
  first : ∃ lexeme, row.head? = some lexeme ∧ lexeme.separates = false
  last : ∃ lexeme, row.getLast? = some lexeme ∧ lexeme.separates = false

/-- Lexemes that can go on a row: none, or a separating mark and what it introduces. -/
structure Continuation (part : List Lexeme) : Prop where
  written : ∀ lexeme ∈ part, lexeme.HasForm
  parted : part.IsChain Lexeme.MayPrecede
  first : ∀ lexeme ∈ part.head?, lexeme.separates = true
  last : ∀ lexeme ∈ part.getLast?, lexeme.separates = false

theorem continuation_nil : Continuation [] where
  written := by simp
  parted := .nil
  first := by simp
  last := by simp

/-- A part that may be absent can go on a row if it can where it is there. -/
theorem continuation_elim {α : Type} {given : Option α} {part : α → List Lexeme}
    (continues : ∀ value ∈ given, Continuation (part value)) :
    Continuation (given.elim [] part) := by
  cases given with
  | none => exact continuation_nil
  | some value => exact continues value rfl

/-- A lexeme that does not separate is legible alone. -/
theorem legible_single {lexeme : Lexeme} (written : lexeme.HasForm)
    (other : lexeme.separates = false) : Legible [lexeme] where
  written := by simpa using written
  parted := .singleton lexeme
  first := ⟨lexeme, rfl, other⟩
  last := ⟨lexeme, rfl, other⟩

/-- A mark stands before a row. -/
theorem Legible.mark_cons {sign : Mark} {row : List Lexeme} (legible : Legible row) :
    (∀ lexeme ∈ Lexeme.mark sign :: row, lexeme.HasForm) ∧
      (Lexeme.mark sign :: row).IsChain Lexeme.MayPrecede ∧
      ∃ lexeme, (Lexeme.mark sign :: row).getLast? = some lexeme ∧ lexeme.separates = false := by
  obtain ⟨lexeme, ends, other⟩ := legible.last
  refine ⟨List.forall_mem_cons.mpr ⟨trivial, legible.written⟩, ?_, lexeme, ?_, other⟩
  · refine legible.parted.cons ?_
    intro _ _ word
    cases word
  · rw [List.getLast?_cons, ends]
    rfl

/-- A mark that does not separate starts a row. -/
theorem Legible.cons {sign : Mark} {row : List Lexeme} (legible : Legible row)
    (other : (Lexeme.mark sign).separates = false) : Legible (.mark sign :: row) := by
  obtain ⟨written, parted, last⟩ := legible.mark_cons
  exact ⟨written, parted, ⟨.mark sign, rfl, other⟩, last⟩

/-- A separating mark makes a row a continuation. -/
theorem Legible.continuation {sign : Mark} {row : List Lexeme} (legible : Legible row)
    (separates : (Lexeme.mark sign).separates = true) : Continuation (.mark sign :: row) := by
  obtain ⟨written, parted, lexeme, ends, other⟩ := legible.mark_cons
  refine ⟨written, parted, ?_, ?_⟩
  · intro first starts
    rw [← Option.some.inj starts]
    exact separates
  · intro final same
    obtain rfl := Option.some.inj (ends.symm.trans same)
    exact other

/-- A legible row goes on legibly. -/
theorem Legible.append {row part : List Lexeme} (legible : Legible row)
    (continues : Continuation part) : Legible (row ++ part) where
  written := List.forall_mem_append.mpr ⟨legible.written, continues.written⟩
  parted := legible.parted.append continues.parted
    fun _ _ next first _ => continues.first next first
  first := by
    obtain ⟨lexeme, starts, other⟩ := legible.first
    exact ⟨lexeme, by simp [List.head?_append, starts], other⟩
  last := by
    cases ends : part.getLast? with
    | none =>
        obtain ⟨lexeme, same, other⟩ := legible.last
        exact ⟨lexeme, by simp [List.getLast?_append, ends, same], other⟩
    | some lexeme =>
        exact ⟨lexeme, by simp [List.getLast?_append, ends], continues.last lexeme ends⟩

/-- Two continuations make one. -/
theorem Continuation.append {first second : List Lexeme} (before : Continuation first)
    (after : Continuation second) : Continuation (first ++ second) where
  written := List.forall_mem_append.mpr ⟨before.written, after.written⟩
  parted := before.parted.append after.parted fun _ _ next leads _ => after.first next leads
  first := by
    intro lexeme starts
    rw [List.head?_append] at starts
    cases leads : first.head? with
    | none =>
        rw [leads] at starts
        exact after.first lexeme starts
    | some other =>
        rw [leads] at starts
        exact before.first lexeme (leads.trans starts)
  last := by
    intro lexeme ends
    rw [List.getLast?_append] at ends
    cases final : second.getLast? with
    | none =>
        rw [final] at ends
        exact before.last lexeme ends
    | some other =>
        rw [final] at ends
        exact after.last lexeme (final.trans ends)

/-- A row ends as its last lexeme does. -/
theorem exists_getLast?_form {row : List Lexeme} (written : ∀ lexeme ∈ row, lexeme.HasForm)
    (last : ∃ lexeme, row.getLast? = some lexeme ∧ lexeme.separates = false) :
    ∃ c, (row.flatMap Lexeme.form).getLast? = some c ∧ Text.isBlank c = false := by
  obtain ⟨lexeme, ends, other⟩ := last
  obtain ⟨start, rfl⟩ := List.getLast?_eq_some_iff.mp ends
  obtain ⟨c, final, visible⟩ := (Lexeme.tight_form (written lexeme (by simp)) other).last
  exact ⟨c, by simp [List.getLast?_append, final], visible⟩

/-- A legible row starts and ends without blanks. -/
theorem Legible.tight {row : List Lexeme} (legible : Legible row) :
    Text.Tight (row.flatMap Lexeme.form) where
  first := by
    obtain ⟨lexeme, starts, other⟩ := legible.first
    obtain ⟨rest, rfl⟩ := List.head?_eq_some_iff.mp starts
    have written := legible.written lexeme (List.mem_cons_self ..)
    obtain ⟨c, leads, visible⟩ := (Lexeme.tight_form written other).first
    exact ⟨c, by simp [List.head?_append, leads], visible⟩
  last := exists_getLast?_form legible.written legible.last

end EditableTemplate
