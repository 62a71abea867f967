import EditableTemplate.Proofs.Color.Leading
import EditableTemplate.Proofs.Text.Plain

/-!
# Reading colors

The texts of colors are exactly those that have one of their forms (`Color.isValid_iff_written`).
Since no channel starts with what separates channels, each leading channel and each separator has
one end, so that the readers find every function without trying another one
(`Color.isFunction_iff`).
-/

namespace EditableTemplate.Color

variable {text rest : List Char} {c : Char}

/-! ## Functions -/

theorem opensChannel_last {last : LastChannel} (formed : last.WellFormed) (rest : List Char) :
    OpensChannel (last.text ++ rest) := by
  obtain ⟨start, more, run⟩ := List.exists_cons_of_ne_nil formed.nonempty
  have inside : inLastRun start = true := formed.run start (by simp [run])
  intro c first
  rw [LastChannel.text, run] at first
  obtain rfl := Option.some.inj first
  rcases Bool.or_eq_true_iff.mp inside with digit | point
  · exact ⟨NumberLiteral.ne_of_isDigit digit (by decide), Text.isBlank_of_isDigit digit⟩
  · rw [of_decide_eq_true point]
    decide

theorem inLastRun_eq_false (digit : Text.isDigit c = false) (point : c ≠ '.') :
    inLastRun c = false :=
  Bool.or_eq_false_iff.mpr ⟨digit, decide_eq_false point⟩

/-- A closing part is a run of digits and points, an optional per cent sign and the bracket. -/
theorem isClosing_iff_runs :
    isClosing text = true ↔ text.takeWhile inLastRun ≠ [] ∧
      Text.trimStart (dropOptional ['%'] (text.dropWhile inLastRun)) = [')'] := by
  fun_cases isClosing text with
  | case1 _ none =>
    have none : text.takeWhile inLastRun = [] := none
    simp only [none, Bool.false_eq_true, ne_eq, not_true_eq_false, false_and]
  | case2 _ some =>
    have nonempty : text.takeWhile inLastRun ≠ [] := some
    rw [decide_eq_true_iff, and_iff_right nonempty]
    rfl

/-- What ends a function starts with no part of a last channel. -/
theorem head_after {after : List Char} (trailing : ∀ c ∈ after, Text.isBlank c = true) :
    ∀ c ∈ (after ++ [')']).head?, Text.isDigit c = false ∧ c ≠ '.' ∧ c ≠ '%' := by
  intro c first
  cases after with
  | nil =>
    obtain rfl := Option.some.inj first
    decide
  | cons start more =>
    obtain rfl := Option.some.inj first
    have blank := trailing _ List.mem_cons_self
    exact ⟨isDigit_of_separates (.inr blank), ne_of_separates (.inr blank) (by decide) (by decide),
      ne_of_separates (.inr blank) (by decide) (by decide)⟩

/-- A text closes a function exactly if it is a last channel and a closing parenthesis, perhaps
with blank characters between them. -/
theorem isClosing_iff :
    isClosing text = true ↔ ∃ (last : LastChannel) (after : List Char), last.WellFormed ∧
      (∀ c ∈ after, Text.isBlank c = true) ∧ text = last.text ++ (after ++ [')']) := by
  rw [isClosing_iff_runs]
  constructor
  · rintro ⟨nonempty, closed⟩
    obtain ⟨percent, afterRun⟩ := exists_percentText (text.dropWhile inLastRun)
    have blanks := Text.trimStart_append (dropOptional ['%'] (text.dropWhile inLastRun))
    rw [closed] at blanks
    refine ⟨⟨text.takeWhile inLastRun, percent⟩,
      (dropOptional ['%'] (text.dropWhile inLastRun)).takeWhile Text.isBlank,
      ⟨nonempty, fun c member => List.mem_takeWhile_imp member⟩,
      fun c member => List.mem_takeWhile_imp member, ?_⟩
    rw [LastChannel.text, List.append_assoc, blanks, ← afterRun, List.takeWhile_append_dropWhile]
  · rintro ⟨last, after, formed, trailing, rfl⟩
    have stops := head_after trailing
    have ends := head_percentText last.percent fun c first =>
      ⟨(stops c first).1, (stops c first).2.1⟩
    obtain ⟨taken, left⟩ := Text.takeWhile_run formed.run fun c first =>
      inLastRun_eq_false (ends c first).1 (ends c first).2
    have percent := dropOptional_percentText last.percent fun c first => (stops c first).2.2
    have closed : Text.trimStart (after ++ [')']) = [')'] := by
      apply (Text.takeWhile_run trailing _).2
      intro c first
      obtain rfl := Option.some.inj first
      decide
    rw [LastChannel.text, List.append_assoc, taken, left, percent]
    exact ⟨formed.nonempty, closed⟩

/-- A text closes a function after so many leading channels exactly if it is as many, a last one
and a closing parenthesis. -/
theorem closesAfter_iff {count : Nat} :
    closesAfter count text = true ↔
      ∃ (leading : List (Channel × Separator)) (last : LastChannel) (after : List Char),
        leading.length = count ∧ (∀ part ∈ leading, part.1.WellFormed ∧ part.2.WellFormed) ∧
        last.WellFormed ∧ (∀ c ∈ after, Text.isBlank c = true) ∧
        text = FunctionForm.leadingText leading ++ (last.text ++ (after ++ [')'])) := by
  unfold closesAfter
  constructor
  · intro closes
    split at closes
    · rename_i rest dropped
      obtain ⟨leading, length, each, rfl⟩ := exists_leading dropped
      obtain ⟨last, after, formed, trailing, rfl⟩ := isClosing_iff.mp closes
      exact ⟨leading, last, after, length, each, formed, trailing, rfl⟩
    · cases closes
  · rintro ⟨leading, last, after, rfl, each, formed, trailing, rfl⟩
    rw [dropChannels?_leadingText each (opensChannel_last formed _)]
    exact isClosing_iff.mpr ⟨last, after, formed, trailing, rfl⟩

/-- Letters, an optional letter `a` and a parenthesis are read off a text exactly if it starts with
them. -/
theorem exists_dropWord?_iff {letters : List Char} :
    (∃ afterLetters, dropWord? letters text = some afterLetters ∧
        dropOptional ['a'] afterLetters = '(' :: rest) ↔
      ∃ name : List Char, (name.map lowerFunction = letters ∨
        name.map lowerFunction = letters ++ ['a']) ∧ text = name ++ '(' :: rest := by
  constructor
  · rintro ⟨afterLetters, start, opened⟩
    obtain ⟨spelled, same, rfl⟩ := dropWord?_eq_some_iff.mp start
    rcases dropOptional_eq ['a'] afterLetters with ⟨fourth, last, whole⟩ | whole
    · refine ⟨spelled ++ fourth, .inr ?_, ?_⟩
      · rw [List.map_append, same, last]
      · rw [List.append_assoc, ← opened, ← whole]
    · exact ⟨spelled, .inl same, by rw [← opened, whole]⟩
  · rintro ⟨name, same | same, rfl⟩
    · refine ⟨_, dropWord?_eq_some_iff.mpr ⟨name, same, rfl⟩, dropOptional_of_ne ?_⟩
      intro c first
      obtain rfl := Option.some.inj first
      decide
    · obtain ⟨spelled, fourth, rfl, start, last⟩ := List.map_eq_append_iff.mp same
      exact ⟨_, dropWord?_eq_some_iff.mpr ⟨spelled, start, List.append_assoc ..⟩,
        dropOptional_append fourth last⟩

/-- A text that starts with the letters `hsl` does not start with `rgb`. -/
theorem dropWord?_rgb_of_hsl {after : List Char}
    (found : dropWord? ['h', 's', 'l'] text = some after) :
    dropWord? ['r', 'g', 'b'] text = none := by
  obtain ⟨spelled, same, rfl⟩ := dropWord?_eq_some_iff.mp found
  obtain ⟨c, more, rfl, start, _⟩ := List.map_eq_cons_iff.mp same
  apply dropWord?_of_ne
  intro first present other
  obtain rfl := Option.some.inj present
  rw [start] at other
  cases other

/-- A text opens a function exactly if it starts with the name of one and a parenthesis. -/
theorem dropOpening?_eq_some_iff :
    dropOpening? text = some rest ↔ ∃ name : List Char,
      name.map lowerFunction ∈ FunctionForm.words ∧ text = name ++ '(' :: rest := by
  have unfolded : dropOpening? text = some rest ↔ ∃ afterLetters,
      ((dropWord? ['r', 'g', 'b'] text).or (dropWord? ['h', 's', 'l'] text)) = some afterLetters ∧
      dropOptional ['a'] afterLetters = '(' :: rest := by
    simp only [← dropWord?_mark '(' (by decide) (by decide)]
    exact Option.bind_eq_some_iff
  have either : ∀ afterLetters,
      (dropWord? ['r', 'g', 'b'] text).or (dropWord? ['h', 's', 'l'] text) = some afterLetters ↔
        dropWord? ['r', 'g', 'b'] text = some afterLetters ∨
          dropWord? ['h', 's', 'l'] text = some afterLetters := by
    intro afterLetters
    rw [Option.or_eq_some_iff]
    exact or_congr_right (and_iff_right_of_imp dropWord?_rgb_of_hsl)
  rw [unfolded]
  calc (∃ afterLetters, (dropWord? ['r', 'g', 'b'] text).or (dropWord? ['h', 's', 'l'] text) =
        some afterLetters ∧ dropOptional ['a'] afterLetters = '(' :: rest)
      ↔ (∃ afterLetters, dropWord? ['r', 'g', 'b'] text = some afterLetters ∧
            dropOptional ['a'] afterLetters = '(' :: rest) ∨
          ∃ afterLetters, dropWord? ['h', 's', 'l'] text = some afterLetters ∧
            dropOptional ['a'] afterLetters = '(' :: rest := by
        simp only [either, or_and_right, exists_or]
    _ ↔ _ := by
        rw [exists_dropWord?_iff, exists_dropWord?_iff, ← exists_or]
        simp only [← or_and_right, FunctionForm.words, List.mem_cons, List.not_mem_nil, or_false,
          or_assoc, List.cons_append, List.nil_append]

/-- A text spells the name of a color function exactly if its lower case is one. -/
theorem exists_spells_iff {name : List Char} :
    (∃ word ∈ FunctionForm.words, Spells word name) ↔
      name.map lowerFunction ∈ FunctionForm.words := by
  have lower : ∀ word ∈ FunctionForm.words, word.all Char.isLower = true := by decide
  constructor
  · rintro ⟨word, listed, spells⟩
    rw [(map_lowerFunction_eq_iff (lower word listed)).mpr spells]
    exact listed
  · intro listed
    exact ⟨_, listed, (map_lowerFunction_eq_iff (lower _ listed)).mp rfl⟩

/-- A text is a color function exactly if it is one as written. -/
theorem isFunction_iff :
    isFunction text = true ↔ ∃ form : FunctionForm, form.WellFormed ∧ form.text = text := by
  unfold isFunction
  constructor
  · intro accepted
    split at accepted
    · rename_i rest opened
      obtain ⟨name, named, rfl⟩ := dropOpening?_eq_some_iff.mp opened
      have closes : ∃ count, (count = 2 ∨ count = 3) ∧
          closesAfter count (Text.trimStart rest) = true := by
        rcases Bool.or_eq_true_iff.mp accepted with closes | closes
        · exact ⟨3, .inr rfl, closes⟩
        · exact ⟨2, .inl rfl, closes⟩
      obtain ⟨count, few, closes⟩ := closes
      obtain ⟨leading, last, after, rfl, each, formed, trailing, whole⟩ :=
        closesAfter_iff.mp closes
      refine ⟨⟨name, rest.takeWhile Text.isBlank, leading, last, after⟩,
        ⟨exists_spells_iff.mpr named, fun c member => List.mem_takeWhile_imp member, few, each,
          formed, trailing⟩, ?_⟩
      rw [FunctionForm.text, FunctionForm.channelsText, ← whole, Text.trimStart_append]
    · cases accepted
  · rintro ⟨form, formed, rfl⟩
    have opened : dropOpening? form.text = some (form.before ++ form.channelsText) :=
      dropOpening?_eq_some_iff.mpr ⟨form.name, exists_spells_iff.mp formed.name, rfl⟩
    have channel : OpensChannel form.channelsText :=
      opensChannel_leadingText formed.leading (opensChannel_last formed.last _)
    have blanks : Text.trimStart (form.before ++ form.channelsText) = form.channelsText :=
      (Text.takeWhile_run formed.before fun c first => (channel c first).2).2
    have closes : closesAfter form.leading.length form.channelsText = true :=
      closesAfter_iff.mpr ⟨form.leading, form.last, form.after, rfl, formed.leading, formed.last,
        formed.after, rfl⟩
    simp only [opened, blanks]
    rcases formed.count with two | three
    · rw [two] at closes
      rw [closes, Bool.or_true]
    · rw [three] at closes
      rw [closes, Bool.true_or]

/-! ## Hexadecimal digits and names -/

theorem isHexDigit_iff : isHexDigit c = true ↔ c ∈ hexDigits := by
  have usual : ∀ number ∈ List.range' 48 10, Char.ofNat number ∈ hexDigits := by decide
  have letters : ∀ number ∈ List.range' 97 6, (Char.ofNat number).isLower = true ∧
      Char.ofNat number ∈ hexDigits ∧ (Char.ofNat number).toUpper ∈ hexDigits := by decide
  constructor
  · intro accepted
    rcases Bool.or_eq_true_iff.mp accepted with digit | letter
    · obtain ⟨low, high⟩ : 48 ≤ c.toNat ∧ c.toNat ≤ 57 := Char.isDigit_iff_toNat.mp digit
      have bounds := usual c.toNat (List.mem_range'_1.mpr ⟨low, by omega⟩)
      rwa [Char.ofNat_toNat] at bounds
    · obtain ⟨low, high⟩ := Bool.and_eq_true_iff.mp letter
      have low : 97 ≤ c.toLower.toNat := of_decide_eq_true low
      have high : c.toLower.toNat ≤ 102 := of_decide_eq_true high
      have bounds := letters c.toLower.toNat (List.mem_range'_1.mpr ⟨low, by omega⟩)
      rw [Char.ofNat_toNat] at bounds
      obtain ⟨lower, small, capital⟩ := bounds
      rcases (toLower_eq_iff lower).mp rfl with same | same
      · rwa [same]
      · rwa [same]
  · exact List.all_eq_true.mp (by decide : hexDigits.all isHexDigit = true) c

/-- A color in hexadecimal form is a number sign and three, four, six or eight digits. -/
theorem isHex_iff :
    isHex text = true ↔ ∃ digits, (∀ c ∈ digits, c ∈ hexDigits) ∧
      digits.length ∈ [3, 4, 6, 8] ∧ text = '#' :: digits := by
  unfold isHex
  split
  · rename_i digits
    simp only [Bool.and_eq_true, List.all_eq_true, isHexDigit_iff, List.contains_iff_mem,
      List.cons.injEq, true_and]
    constructor
    · rintro ⟨hexadecimal, count⟩
      exact ⟨digits, hexadecimal, count, rfl⟩
    · rintro ⟨_, hexadecimal, count, rfl⟩
      exact ⟨hexadecimal, count⟩
  · rename_i other
    simp only [Bool.false_eq_true, false_iff]
    rintro ⟨digits, _, _, rfl⟩
    exact other digits rfl

/-- The name of a color is one of the list, in any case. -/
theorem isName_iff :
    isName text = true ↔ ∃ word ∈ names, text.map Text.lower = word.toList := by
  rw [isName, List.contains_iff_mem]
  constructor
  · intro listed
    exact ⟨_, listed, String.toList_ofList.symm⟩
  · rintro ⟨word, listed, same⟩
    rw [same, String.ofList_toList]
    exact listed

/-! ## Colors -/

/-- A text without blank characters around it is read as a color exactly if it is written as
one. -/
theorem written_iff :
    Written text ↔ (isName text || isHex text || isFunction text) = true := by
  rw [Bool.or_eq_true, Bool.or_eq_true, isName_iff, isHex_iff, isFunction_iff]
  constructor
  · rintro (⟨listed, same⟩ | ⟨hexadecimal, count⟩ | formed)
    · exact .inl (.inl ⟨_, listed, same⟩)
    · exact .inl (.inr ⟨_, hexadecimal, count, rfl⟩)
    · exact .inr ⟨_, formed, rfl⟩
  · rintro ((⟨word, listed, same⟩ | ⟨digits, hexadecimal, count, rfl⟩) | ⟨form, formed, rfl⟩)
    · exact .name listed same
    · exact .hex hexadecimal count
    · exact .function formed

/-- A text is a color exactly where what is left without the blanks around it is written as one. -/
theorem isValid_iff :
    isValid text = true ↔ ∃ color, Text.Trimmed text color ∧ Written color := by
  have candidate : isValid text = true ↔ Written (Text.trim text) := written_iff.symm
  rw [candidate]
  constructor
  · intro written
    exact ⟨_, Text.trimmed_trim text, written⟩
  · rintro ⟨color, trimmed, written⟩
    rwa [trimmed.trim_eq]

/-- The color found in a text of code points is what is left of characters without the blank ones
around them. None is found in a text that holds half of a surrogate pair. -/
theorem ofText?_eq_some_iff {text color : CodePoints} :
    ofText? text = some color ↔ ∃ chars spelled, text = .ofChars chars ∧
      color = .ofChars spelled ∧ Text.Trimmed chars spelled ∧ Written spelled := by
  unfold ofText?
  constructor
  · intro found
    split at found
    · rename_i chars plain
      split at found
      · rename_i valid
        obtain ⟨spelled, trimmed, written⟩ := isValid_iff.mp valid
        obtain rfl := Option.some.inj found
        exact ⟨chars, spelled, CodePoints.plain?_eq_some_iff.mp plain, by rw [trimmed.trim_eq],
          trimmed, written⟩
      · cases found
    · cases found
  · rintro ⟨chars, spelled, rfl, rfl, trimmed, written⟩
    rw [CodePoints.plain?_ofChars]
    simp only [isValid_iff.mpr ⟨spelled, trimmed, written⟩, if_true, trimmed.trim_eq]

/-- **The language of colors.** A text is a color exactly if what is left of it without the blank
characters around it is written as one, and that is the color found in it. -/
theorem isValid_iff_written :
    (∀ text : List Char, isValid text = true ↔
      ∃ color, Text.Trimmed text color ∧ Written color) ∧
    ∀ text color : CodePoints, ofText? text = some color ↔
      ∃ chars spelled, text = .ofChars chars ∧ color = .ofChars spelled ∧
        Text.Trimmed chars spelled ∧ Written spelled :=
  ⟨fun _ => isValid_iff, fun _ _ => ofText?_eq_some_iff⟩

end EditableTemplate.Color
