import EditableTemplate.Proofs.Color.Word
import EditableTemplate.Proofs.Number.Longest

/-!
# Reading leading channels

What the readers of a leading channel, of a separator and of several channels in a row take off a
text is one (`Color.exists_channel`, `Color.exists_separator`, `Color.exists_leading`), and each of
these is taken off whatever can follow it: a leading channel off what opens a separator, and a
separator off what opens a channel (`Color.dropChannel?_text`, `Color.dropSeparator?_text`,
`Color.dropChannels?_leadingText`). Nothing opens both.
-/

namespace EditableTemplate.Color

variable {text rest : List Char} {c mark : Char}

/-! ## What separates channels -/

/-- What separates channels is no digit. -/
theorem isDigit_of_separates (separates : c = ',' ∨ Text.isBlank c = true) :
    Text.isDigit c = false := by
  rcases separates with rfl | blank
  · decide
  · apply Bool.eq_false_iff.mpr
    intro digit
    rw [Text.isBlank_of_isDigit digit] at blank
    cases blank

/-- What separates channels is no visible mark but the comma. -/
theorem ne_of_separates (separates : c = ',' ∨ Text.isBlank c = true) (comma : mark ≠ ',')
    (visible : Text.isBlank mark = false) : c ≠ mark := by
  rintro rfl
  rcases separates with same | blank
  · exact comma same
  · cases visible.symm.trans blank

/-- A text starts with a comma or a blank character, if it is not empty. -/
def OpensSeparator (text : List Char) : Prop :=
  ∀ c ∈ text.head?, c = ',' ∨ Text.isBlank c = true

/-- A text starts with neither a comma nor a blank character. -/
def OpensChannel (text : List Char) : Prop :=
  ∀ c ∈ text.head?, c ≠ ',' ∧ Text.isBlank c = false

/-! ## Optional marks -/

/-- Dropping an optional minus is splitting off the sign. -/
theorem dropOptional_minus (text : List Char) :
    dropOptional ['-'] text = (NumberLiteral.splitSign text).2 := by
  cases text with
  | nil => rfl
  | cons c rest =>
    by_cases minus : c = '-'
    · subst minus
      exact dropOptional_append ['-'] rfl
    · rw [NumberLiteral.splitSign_of_ne minus]
      apply dropOptional_of_ne
      intro first present same
      obtain rfl := Option.some.inj present
      exact minus (eq_of_lowerFunction_eq rfl same)

/-- What is left after an optional per cent sign. -/
theorem exists_percentText (text : List Char) :
    ∃ percent, text = percentText percent ++ dropOptional ['%'] text := by
  rcases dropOptional_eq ['%'] text with ⟨spelled, same, whole⟩ | same
  · rw [eq_of_map_lowerFunction_eq rfl same] at whole
    exact ⟨true, whole⟩
  · exact ⟨false, same.symm⟩

/-- The per cent sign is dropped where it is written. -/
theorem dropOptional_percentText (percent : Bool) (apart : ∀ c ∈ rest.head?, c ≠ '%') :
    dropOptional ['%'] (percentText percent ++ rest) = rest := by
  cases percent with
  | true => exact dropOptional_append ['%'] rfl
  | false =>
    apply dropOptional_of_ne
    intro c first same
    exact apart c first (eq_of_lowerFunction_eq rfl same)

/-- Digits are dropped where the text starts with one, as many as there are. -/
theorem dropDigits?_eq_some_iff :
    dropDigits? text = some rest ↔
      text.takeWhile Text.isDigit ≠ [] ∧ text.dropWhile Text.isDigit = rest := by
  unfold dropDigits?
  split
  · rename_i none
    simp only [none, ne_eq, not_true_eq_false, false_and, reduceCtorEq]
  · rename_i some
    rw [Option.some.injEq, and_iff_right some]

/-- Dropping a fraction is splitting it off. -/
theorem dropFraction_eq (text : List Char) :
    dropFraction text = (NumberLiteral.splitFraction text).2 := by
  fun_cases NumberLiteral.splitFraction text with
  | case1 rest none => simp only [dropFraction, dropDigits?, none, Option.getD_none]
  | case2 rest some =>
    have dropped := dropDigits?_eq_some_iff.mpr ⟨some, rfl⟩
    simp only [dropFraction, dropped, Option.getD_some]
  | case3 => exact dropFraction.eq_2 text ‹_›

/-! ## Channels and separators -/

/-- Digits after an optional sign and before an optional fraction make up a number. -/
theorem exists_number {digits : List Char}
    (dropped : dropDigits? (dropOptional ['-'] text) = some digits) :
    ∃ number : NumberLiteral, number.WellFormed ∧ number.exponent = none ∧
      text = number.text ++ dropFraction digits := by
  rw [dropOptional_minus] at dropped
  obtain ⟨some, rfl⟩ := dropDigits?_eq_some_iff.mp dropped
  rw [dropFraction_eq]
  refine ⟨⟨(NumberLiteral.splitSign text).1,
    (NumberLiteral.splitSign text).2.takeWhile Text.isDigit,
    (NumberLiteral.splitFraction ((NumberLiteral.splitSign text).2.dropWhile Text.isDigit)).1,
    none⟩, ⟨some, ?_, ?_, nofun⟩, rfl, ?_⟩
  · exact fun c member => List.mem_takeWhile_imp member
  · exact fun c member => NumberLiteral.isDigit_of_mem_splitFraction member
  · simp only [NumberLiteral.text, NumberLiteral.exponentText, List.append_nil, List.append_assoc,
      NumberLiteral.fractionText_splitFraction, List.takeWhile_append_dropWhile,
      NumberLiteral.signText_splitSign]

/-- What is left after an optional unit. -/
theorem exists_unit (text : List Char) :
    ∃ unit, (unit = [] ∨ Spells ['d', 'e', 'g'] unit) ∧
      text = unit ++ dropOptional ['d', 'e', 'g'] text := by
  rcases dropOptional_eq ['d', 'e', 'g'] text with ⟨unit, same, whole⟩ | same
  · exact ⟨unit, .inr ((map_lowerFunction_eq_iff (by decide)).mp same), whole⟩
  · exact ⟨[], .inl rfl, same.symm⟩

/-- What is taken off as a leading channel is one. -/
theorem exists_channel (dropped : dropChannel? text = some rest) :
    ∃ channel : Channel, channel.WellFormed ∧ text = channel.text ++ rest := by
  obtain ⟨digits, found, onward⟩ := Option.bind_eq_some_iff.mp dropped
  obtain rfl := Option.some.inj onward
  obtain ⟨number, formed, plain, whole⟩ := exists_number found
  obtain ⟨percent, afterNumber⟩ := exists_percentText (dropFraction digits)
  obtain ⟨unit, degrees, afterPercent⟩ := exists_unit (dropOptional ['%'] (dropFraction digits))
  refine ⟨⟨number, percent, unit⟩, ⟨formed, plain, degrees⟩, ?_⟩
  calc text = number.text ++ dropFraction digits := whole
    _ = number.text ++ (percentText percent ++ dropOptional ['%'] (dropFraction digits)) :=
      congrArg _ afterNumber
    _ = number.text ++ (percentText percent ++ (unit ++ dropOptional ['d', 'e', 'g']
        (dropOptional ['%'] (dropFraction digits)))) := by rw [← afterPercent]
    _ = (number.text ++ percentText percent ++ unit) ++ dropOptional ['d', 'e', 'g']
        (dropOptional ['%'] (dropFraction digits)) := by simp only [List.append_assoc]

/-- A number is taken off what goes on with neither a digit nor a point. -/
theorem dropDigits?_text {number : NumberLiteral} (formed : number.WellFormed)
    (plain : number.exponent = none)
    (ends : ∀ c ∈ rest.head?, Text.isDigit c = false ∧ c ≠ '.') :
    dropDigits? (dropOptional ['-'] (number.text ++ rest)) =
      some (NumberLiteral.fractionText number.fraction ++ rest) := by
  have onward := NumberLiteral.head_fractionText number.fraction fun c first => (ends c first).1
  obtain ⟨taken, left⟩ := Text.takeWhile_run formed.whole onward
  rw [dropOptional_minus, NumberLiteral.splitSign_text formed, plain, NumberLiteral.exponentText,
    List.nil_append]
  rw [dropDigits?_eq_some_iff, taken]
  exact ⟨formed.nonempty, left⟩

/-- A fraction is dropped as it is written, if no digit or point follows. -/
theorem dropFraction_fractionText {fraction : List Char}
    (digits : ∀ c ∈ fraction, Text.isDigit c = true)
    (ends : ∀ c ∈ rest.head?, Text.isDigit c = false ∧ c ≠ '.') :
    dropFraction (NumberLiteral.fractionText fraction ++ rest) = rest := by
  rw [dropFraction_eq, NumberLiteral.splitFraction_append digits ends]

/-- A unit and what separates channels start with no mark of a channel. -/
theorem head_unit {unit : List Char} (degrees : unit = [] ∨ Spells ['d', 'e', 'g'] unit)
    (opens : OpensSeparator rest) :
    ∀ c ∈ (unit ++ rest).head?, Text.isDigit c = false ∧ c ≠ '.' ∧ c ≠ '%' := by
  intro c first
  rcases degrees with rfl | spells
  · have separates := opens c first
    exact ⟨isDigit_of_separates separates, ne_of_separates separates (by decide) (by decide),
      ne_of_separates separates (by decide) (by decide)⟩
  · obtain ⟨letter, others, stands, _, rfl⟩ := List.forall₂_cons_left_iff.mp spells
    obtain rfl := Option.some.inj first
    rcases stands with rfl | rfl | ⟨other, _⟩
    · decide
    · decide
    · cases other

/-- The unit is dropped where it is written, in front of a separator. -/
theorem dropOptional_unit {unit : List Char} (degrees : unit = [] ∨ Spells ['d', 'e', 'g'] unit)
    (opens : OpensSeparator rest) :
    dropOptional ['d', 'e', 'g'] (unit ++ rest) = rest := by
  rcases degrees with rfl | spells
  · apply dropOptional_of_ne
    intro c first same
    have separates := opens c first
    rcases (lowerFunction_eq_iff (by decide)).mp same with rfl | rfl | ⟨other, _⟩
    · exact ne_of_separates separates (by decide) (by decide) rfl
    · exact ne_of_separates separates (by decide) (by decide) rfl
    · cases other
  · exact dropOptional_append unit ((map_lowerFunction_eq_iff (by decide)).mpr spells)

/-- An optional per cent sign puts no digit and no point in front. -/
theorem head_percentText (percent : Bool)
    (ends : ∀ c ∈ rest.head?, Text.isDigit c = false ∧ c ≠ '.') :
    ∀ c ∈ (percentText percent ++ rest).head?, Text.isDigit c = false ∧ c ≠ '.' := by
  cases percent with
  | false => exact ends
  | true =>
    intro c first
    obtain rfl := Option.some.inj first
    decide

/-- A leading channel is taken off what separates it from the next one. -/
theorem dropChannel?_text {channel : Channel} (formed : channel.WellFormed)
    (opens : OpensSeparator rest) : dropChannel? (channel.text ++ rest) = some rest := by
  have unit := head_unit formed.unit opens
  have ends := head_percentText channel.percent fun c first =>
    ⟨(unit c first).1, (unit c first).2.1⟩
  have digits := dropDigits?_text formed.number formed.plain ends
  have fraction := dropFraction_fractionText formed.number.fraction ends
  have percent := dropOptional_percentText channel.percent fun c first => (unit c first).2.2
  rw [Channel.text, List.append_assoc, List.append_assoc]
  refine Option.bind_eq_some_iff.mpr ⟨_, digits, congrArg some ?_⟩
  rw [fraction, percent, dropOptional_unit formed.unit opens]

/-- What is taken off as a separator is one. -/
theorem exists_separator (dropped : dropSeparator? text = some rest) :
    ∃ separator : Separator, separator.WellFormed ∧ text = separator.text ++ rest := by
  have blank : ∀ part : List Char, ∀ c ∈ part.takeWhile Text.isBlank, Text.isBlank c = true :=
    fun part c member => List.mem_takeWhile_imp member
  have whole := Text.trimStart_append text
  unfold dropSeparator? at dropped
  split at dropped
  · rename_i after comma
    obtain rfl := Option.some.inj dropped
    refine ⟨.comma (text.takeWhile Text.isBlank) (after.takeWhile Text.isBlank),
      ⟨blank text, blank after⟩, ?_⟩
    rw [Separator.text, List.append_assoc, List.cons_append, Text.trimStart_append, ← comma, whole]
  · split at dropped
    · rename_i shorter
      obtain rfl := Option.some.inj dropped
      refine ⟨.blanks (text.takeWhile Text.isBlank), ⟨?_, blank text⟩, whole.symm⟩
      intro none
      rw [none, List.nil_append] at whole
      rw [whole] at shorter
      exact shorter.false
    · cases dropped

/-- A separator is taken off a channel. -/
theorem dropSeparator?_text {separator : Separator} (formed : separator.WellFormed)
    (opens : OpensChannel rest) : dropSeparator? (separator.text ++ rest) = some rest := by
  have visible : ∀ c ∈ rest.head?, Text.isBlank c = false := fun c first => (opens c first).2
  unfold dropSeparator?
  cases separator with
  | blanks run =>
    obtain ⟨some, blank⟩ := formed
    have left : Text.trimStart (run ++ rest) = rest := (Text.takeWhile_run blank visible).2
    have shorter : rest.length < (run ++ rest).length := by
      rw [List.length_append]
      have := List.length_pos_of_ne_nil some
      omega
    rw [Separator.text, left]
    split
    · exact ((opens ',' rfl).1 rfl).elim
    · rw [if_pos shorter]
  | comma before after =>
    obtain ⟨leading, trailing⟩ := formed
    have comma : Text.trimStart (before ++ (',' :: after ++ rest)) = ',' :: after ++ rest := by
      apply (Text.takeWhile_run leading _).2
      intro c first
      obtain rfl := Option.some.inj first
      decide
    rw [Separator.text, List.append_assoc, comma]
    exact congrArg some (Text.takeWhile_run trailing visible).2

/-! ## Channels in a row -/

theorem opensSeparator_text {separator : Separator} (formed : separator.WellFormed)
    (rest : List Char) : OpensSeparator (separator.text ++ rest) := by
  intro c first
  cases separator with
  | blanks run =>
    obtain ⟨some, blank⟩ := formed
    obtain ⟨start, more, rfl⟩ := List.exists_cons_of_ne_nil some
    obtain rfl := Option.some.inj first
    exact .inr (blank _ List.mem_cons_self)
  | comma before after =>
    cases before with
    | nil =>
      obtain rfl := Option.some.inj first
      exact .inl rfl
    | cons start more =>
      obtain rfl := Option.some.inj first
      exact .inr (formed.1 _ List.mem_cons_self)

/-- A channel starts with neither a comma nor a blank character. -/
theorem opensChannel_text {channel : Channel} (formed : channel.WellFormed) (rest : List Char) :
    OpensChannel (channel.text ++ rest) := by
  obtain ⟨digit, more, whole⟩ := List.exists_cons_of_ne_nil formed.number.nonempty
  have isDigit : Text.isDigit digit = true := formed.number.whole digit (by simp [whole])
  intro c first
  rw [Channel.text, NumberLiteral.text, whole] at first
  cases negative : channel.number.negative with
  | true =>
    rw [negative] at first
    obtain rfl := Option.some.inj first
    decide
  | false =>
    rw [negative] at first
    obtain rfl := Option.some.inj first
    exact ⟨NumberLiteral.ne_of_isDigit isDigit (by decide), Text.isBlank_of_isDigit isDigit⟩

/-- What is taken off as so many leading channels is as many. -/
theorem exists_leading {count : Nat} (dropped : dropChannels? count text = some rest) :
    ∃ leading : List (Channel × Separator), leading.length = count ∧
      (∀ part ∈ leading, part.1.WellFormed ∧ part.2.WellFormed) ∧
      text = FunctionForm.leadingText leading ++ rest := by
  induction count generalizing text with
  | zero =>
    obtain rfl := Option.some.inj dropped
    exact ⟨[], rfl, nofun, rfl⟩
  | succ count ih =>
    obtain ⟨afterChannel, first, onward⟩ := Option.bind_eq_some_iff.mp dropped
    obtain ⟨next, between, others⟩ := Option.bind_eq_some_iff.mp onward
    obtain ⟨channel, formed, rfl⟩ := exists_channel first
    obtain ⟨separator, separates, rfl⟩ := exists_separator between
    obtain ⟨leading, rfl, each, rfl⟩ := ih others
    refine ⟨(channel, separator) :: leading, rfl,
      List.forall_mem_cons.mpr ⟨⟨formed, separates⟩, each⟩, ?_⟩
    exact (FunctionForm.leadingText_cons (channel, separator) leading rest).symm

theorem opensChannel_leadingText {leading : List (Channel × Separator)}
    (each : ∀ part ∈ leading, part.1.WellFormed ∧ part.2.WellFormed) (opens : OpensChannel rest) :
    OpensChannel (FunctionForm.leadingText leading ++ rest) := by
  cases leading with
  | nil => exact opens
  | cons part leading =>
    rw [FunctionForm.leadingText_cons]
    exact opensChannel_text (each part List.mem_cons_self).1 _

/-- Leading channels are taken off a channel. -/
theorem dropChannels?_leadingText {leading : List (Channel × Separator)}
    (each : ∀ part ∈ leading, part.1.WellFormed ∧ part.2.WellFormed) (opens : OpensChannel rest) :
    dropChannels? leading.length (FunctionForm.leadingText leading ++ rest) = some rest := by
  induction leading with
  | nil => rfl
  | cons part leading ih =>
    obtain ⟨first, others⟩ := List.forall_mem_cons.mp each
    have onward := opensChannel_leadingText others opens
    have channel := dropChannel?_text first.1 (opensSeparator_text first.2
      (FunctionForm.leadingText leading ++ rest))
    rw [FunctionForm.leadingText_cons]
    exact Option.bind_eq_some_iff.mpr ⟨_, channel,
      Option.bind_eq_some_iff.mpr ⟨_, dropSeparator?_text first.2 onward, ih others⟩⟩

end EditableTemplate.Color
