import EditableTemplate.Proofs.Color.Reading

/-!
# Channels as numbers

The channels of a color function are what stands between the marks that separate them
(`Color.channels`). All but the last one are decimal numbers. The last one is any run of digits and
points, so that it need not be a number: all channels are decimal numbers exactly if the last one is
(`Color.channels_decimal_iff`).
-/

namespace EditableTemplate.Color

variable {text rest : List Char} {c : Char}

/-- Whether a character separates channels or stands around them. -/
def isMark (c : Char) : Bool :=
  ['(', ',', ')'].contains c || Text.isBlank c

/-- What stands between the marks of a text. -/
def fields (text : List Char) : List (List Char) :=
  (text.splitOnP isMark).filter (· ≠ [])

/-- The channels of a color function: what stands between the marks from the first parenthesis
on. -/
def channels (text : List Char) : List (List Char) :=
  fields (text.dropWhile (· ≠ '('))

/-- A channel is a decimal number: it has a digit, and not more than one point. -/
def IsDecimal (channel : List Char) : Prop :=
  channel.any Text.isDigit = true ∧ channel.count '.' ≤ 1

instance (channel : List Char) : Decidable (IsDecimal channel) :=
  inferInstanceAs (Decidable (channel.any Text.isDigit = true ∧ channel.count '.' ≤ 1))

/-- A channel can stand last: it is digits and points, perhaps with a per cent sign. -/
def CanEnd (channel : List Char) : Prop :=
  ∃ last : LastChannel, last.WellFormed ∧ channel = last.text

/-! ## Fields -/

/-- A mark separates fields. -/
theorem fields_append (first : List Char) (mark : isMark c = true) (second : List Char) :
    fields (first ++ c :: second) = fields first ++ fields second := by
  rw [fields, List.splitOnP_append_cons _ _ mark, List.filter_append]
  rfl

theorem fields_cons (mark : isMark c = true) (text : List Char) :
    fields (c :: text) = fields text :=
  fields_append [] mark text

/-- Marks at the start of a text belong to no field. -/
theorem fields_marks {marks : List Char} (all : ∀ c ∈ marks, isMark c = true) (text : List Char) :
    fields (marks ++ text) = fields text := by
  induction marks with
  | nil => rfl
  | cons mark marks ih =>
    obtain ⟨first, others⟩ := List.forall_mem_cons.mp all
    rw [List.cons_append, fields_cons first, ih others]

/-- A text without marks is one field. -/
theorem fields_eq_singleton (nonempty : text ≠ []) (none : ∀ c ∈ text, isMark c = false) :
    fields text = [text] := by
  rw [fields, List.splitOnP_eq_singleton none, List.filter_singleton]
  simp [nonempty]

/-- A field ends where marks stand. -/
theorem fields_field {field marks : List Char} (nonempty : field ≠ [])
    (none : ∀ c ∈ field, isMark c = false) (some : marks ≠ [])
    (all : ∀ c ∈ marks, isMark c = true) (rest : List Char) :
    fields (field ++ (marks ++ rest)) = field :: fields rest := by
  obtain ⟨mark, marks, rfl⟩ := List.exists_cons_of_ne_nil some
  obtain ⟨first, others⟩ := List.forall_mem_cons.mp all
  rw [List.cons_append, fields_append field first, fields_eq_singleton nonempty none,
    fields_marks others, List.singleton_append]

/-! ## Channels are fields -/

theorem isMark_of_isDigit (digit : Text.isDigit c = true) : isMark c = false := by
  refine Bool.or_eq_false_iff.mpr ⟨?_, Text.isBlank_of_isDigit digit⟩
  apply Bool.eq_false_iff.mpr
  intro listed
  have others : ['(', ',', ')'].any Text.isDigit = false := by decide
  exact List.any_eq_false.mp others c (List.contains_iff_mem.mp listed) digit

theorem isMark_of_isBlank (blank : Text.isBlank c = true) : isMark c = true :=
  Bool.or_eq_true_iff.mpr (.inr blank)

/-- The letters of the unit of degrees, in both cases. -/
def unitLetters : List Char :=
  ['d', 'e', 'g', 'D', 'E', 'G']

theorem mem_unitLetters {unit : List Char} (degrees : unit = [] ∨ Spells ['d', 'e', 'g'] unit)
    (member : c ∈ unit) : c ∈ unitLetters := by
  rcases degrees with rfl | spells
  · cases member
  · have same := (map_lowerFunction_eq_iff (by decide)).mpr spells
    have listed : lowerFunction c ∈ ['d', 'e', 'g'] := same ▸ List.mem_map_of_mem member
    have letters : ['d', 'e', 'g'].all (fun letter => letter.isLower && letter != 's' &&
        unitLetters.contains letter && unitLetters.contains letter.toUpper) = true := by decide
    have letter := List.all_eq_true.mp letters _ listed
    simp only [Bool.and_eq_true, bne_iff_ne, List.contains_iff_mem] at letter
    obtain ⟨⟨⟨lower, other⟩, small⟩, capital⟩ := letter
    rcases (lowerFunction_eq_iff lower).mp rfl with stands | stands | ⟨long, _⟩
    · exact stands ▸ small
    · exact stands ▸ capital
    · exact (other long).elim

theorem mem_percentText {percent : Bool} (member : c ∈ percentText percent) : c = '%' := by
  cases percent with
  | true => exact List.mem_singleton.mp member
  | false => cases member

/-- No mark stands in a leading channel. -/
theorem isMark_of_mem_channel {channel : Channel} (formed : channel.WellFormed) :
    ∀ c ∈ channel.text, isMark c = false := by
  intro c member
  rw [Channel.text, List.mem_append, List.mem_append] at member
  rcases member with (number | percent) | unit
  · exact NumberLiteral.forall_mem_text_of_digits formed.number
      (List.all_iff_forall_prop.mp (by decide)) (fun c digit => isMark_of_isDigit digit) c number
  · rw [mem_percentText percent]
    decide
  · have none : unitLetters.any isMark = false := by decide
    exact Bool.eq_false_iff.mpr (List.any_eq_false.mp none c (mem_unitLetters formed.unit unit))

theorem isMark_of_mem_last {last : LastChannel} (formed : last.WellFormed) :
    ∀ c ∈ last.text, isMark c = false := by
  intro c member
  rcases List.mem_append.mp member with run | percent
  · rcases Bool.or_eq_true_iff.mp (formed.run c run) with digit | point
    · exact isMark_of_isDigit digit
    · rw [of_decide_eq_true point]
      decide
  · rw [mem_percentText percent]
    decide

/-- A separator is written with marks only. -/
theorem isMark_of_mem_separator {separator : Separator} (formed : separator.WellFormed) :
    ∀ c ∈ separator.text, isMark c = true := by
  intro c member
  cases separator with
  | blanks run => exact isMark_of_isBlank (formed.2 c member)
  | comma before after =>
    rcases List.mem_append.mp member with inside | inside
    · exact isMark_of_isBlank (formed.1 c inside)
    · rcases List.mem_cons.mp inside with rfl | inside
      · decide
      · exact isMark_of_isBlank (formed.2 c inside)

theorem separator_ne_nil {separator : Separator} (formed : separator.WellFormed) :
    separator.text ≠ [] := by
  cases separator with
  | blanks run => exact formed.1
  | comma before after => exact List.append_ne_nil_of_right_ne_nil _ (List.cons_ne_nil _ _)

theorem channel_ne_nil {channel : Channel} (formed : channel.WellFormed) : channel.text ≠ [] := by
  obtain ⟨digit, more, whole⟩ := List.exists_cons_of_ne_nil formed.number.nonempty
  simp [Channel.text, NumberLiteral.text, whole]

/-- The leading channels are the first fields. -/
theorem fields_leadingText {leading : List (Channel × Separator)}
    (each : ∀ part ∈ leading, part.1.WellFormed ∧ part.2.WellFormed) (rest : List Char) :
    fields (FunctionForm.leadingText leading ++ rest) =
      leading.map (fun part => part.1.text) ++ fields rest := by
  induction leading with
  | nil => rfl
  | cons part leading ih =>
    obtain ⟨⟨channel, separator⟩, others⟩ := List.forall_mem_cons.mp each
    rw [FunctionForm.leadingText_cons, fields_field (channel_ne_nil channel)
      (isMark_of_mem_channel channel) (separator_ne_nil separator)
      (isMark_of_mem_separator separator), ih others, List.map_cons, List.cons_append]

/-- The channels of a function as written are the fields of its text from the parenthesis on. -/
theorem channels_text {form : FunctionForm} (formed : form.WellFormed) :
    channels form.text = form.leading.map (fun part => part.1.text) ++ [form.last.text] := by
  have name : ∀ c ∈ form.name, decide (c ≠ '(') = true := by
    obtain listed := exists_spells_iff.mp formed.name
    have lower : ∀ word ∈ FunctionForm.words, '(' ∉ word := by decide
    intro c member
    rw [decide_eq_true_iff]
    rintro rfl
    exact lower _ listed (List.mem_map_of_mem member)
  have opened : form.text.dropWhile (· ≠ '(') = '(' :: (form.before ++ form.channelsText) := by
    refine (Text.takeWhile_run name ?_).2
    intro c first
    obtain rfl := Option.some.inj first
    rfl
  have last : fields (form.last.text ++ (form.after ++ [')'])) = [form.last.text] := by
    have closing : ∀ c ∈ form.after ++ [')'], isMark c = true :=
      List.forall_mem_append.mpr ⟨fun c member => isMark_of_isBlank (formed.after c member),
        List.forall_mem_singleton.mpr (by decide)⟩
    have nonempty : form.last.text ≠ [] :=
      List.append_ne_nil_of_left_ne_nil formed.last.nonempty _
    have field := fields_field nonempty (isMark_of_mem_last formed.last)
      (List.append_ne_nil_of_right_ne_nil _ (List.cons_ne_nil _ _)) closing []
    rwa [List.append_nil] at field
  rw [channels, opened, fields_cons (by decide),
    fields_marks fun c member => isMark_of_isBlank (formed.before c member),
    FunctionForm.channelsText, fields_leadingText formed.leading, last]

/-! ## Numbers -/

theorem count_point_digits {digits : List Char} (all : ∀ c ∈ digits, Text.isDigit c = true) :
    digits.count '.' = 0 := by
  apply List.count_eq_zero.mpr
  intro point
  exact NumberLiteral.ne_of_isDigit (all '.' point) (by decide) rfl

/-- A fraction is written with one point at most. -/
theorem count_point_fractionText {fraction : List Char}
    (digits : ∀ c ∈ fraction, Text.isDigit c = true) :
    (NumberLiteral.fractionText fraction).count '.' ≤ 1 := by
  have none : fraction.count '.' = 0 := count_point_digits digits
  cases fraction with
  | nil => exact Nat.zero_le 1
  | cons digit more =>
    change ('.' :: digit :: more).count '.' ≤ 1
    rw [List.count_cons_self, none]

/-- A leading channel is a decimal number. -/
theorem isDecimal_channel {channel : Channel} (formed : channel.WellFormed) :
    IsDecimal channel.text := by
  constructor
  · obtain ⟨digit, more, whole⟩ := List.exists_cons_of_ne_nil formed.number.nonempty
    refine List.any_eq_true.mpr ⟨digit, ?_, formed.number.whole digit (by simp [whole])⟩
    simp [Channel.text, NumberLiteral.text, whole]
  · have sign : (NumberLiteral.signText channel.number.negative).count '.' = 0 := by
      cases channel.number.negative <;> decide
    have whole : channel.number.whole.count '.' = 0 := count_point_digits formed.number.whole
    have fraction := count_point_fractionText formed.number.fraction
    have percent : (percentText channel.percent).count '.' = 0 := by
      cases channel.percent <;> decide
    have unit : channel.unit.count '.' = 0 := by
      apply List.count_eq_zero.mpr
      intro member
      have letter := mem_unitLetters formed.unit member
      revert letter
      decide
    simp only [Channel.text, NumberLiteral.text, formed.plain, NumberLiteral.exponentText,
      List.append_nil, List.count_append, sign, whole, percent, unit]
    omega

/-- What stands for a letter is not blank. -/
theorem isBlank_of_isLetter {letter : Char} (lower : letter.isLower = true)
    (stands : IsLetter letter c) : Text.isBlank c = false := by
  have letters : ∀ number ∈ List.range' 97 26, Text.isBlank (Char.ofNat number) = false ∧
      Text.isBlank (Char.ofNat number).toUpper = false := by decide
  obtain ⟨low, high⟩ := Bool.and_eq_true_iff.mp lower
  have low : 97 ≤ letter.toNat := of_decide_eq_true low
  have high : letter.toNat ≤ 122 := of_decide_eq_true high
  have visible := letters letter.toNat (List.mem_range'_1.mpr ⟨low, by omega⟩)
  rw [Char.ofNat_toNat] at visible
  rcases stands with rfl | rfl | ⟨_, rfl⟩
  · exact visible.1
  · exact visible.2
  · decide

/-- A function as written starts with a letter and ends with a parenthesis. -/
theorem tight_text {form : FunctionForm} (formed : form.WellFormed) : Text.Tight form.text where
  first := by
    obtain ⟨word, listed, spells⟩ := formed.name
    have letters : ∀ word ∈ FunctionForm.words, word ≠ [] ∧ word.all Char.isLower = true := by
      decide
    obtain ⟨some, all⟩ := letters word listed
    obtain ⟨letter, more, rfl⟩ := List.exists_cons_of_ne_nil some
    obtain ⟨c, others, stands, _, name⟩ := List.forall₂_cons_left_iff.mp spells
    refine ⟨c, ?_, isBlank_of_isLetter (Bool.and_eq_true_iff.mp all).1 stands⟩
    rw [FunctionForm.text, name]
    rfl
  last := by
    refine ⟨')', ?_, by decide⟩
    have shape : form.text = (form.name ++ '(' :: (form.before ++
        (FunctionForm.leadingText form.leading ++ (form.last.text ++ form.after)))) ++ [')'] := by
      simp [FunctionForm.text, FunctionForm.channelsText]
    rw [shape, List.getLast?_concat]

/-- **The channels of a color function.** All but the last one are decimal numbers, and all are
exactly if the last one is. The last one is any run of digits and points: whatever other run
stands in its place is accepted too. -/
theorem channels_decimal_iff (accepted : isFunction (Text.trim text) = true) :
    ∃ leading last, channels (Text.trim text) = leading ++ [last] ∧
      (leading.length = 2 ∨ leading.length = 3) ∧ (∀ channel ∈ leading, IsDecimal channel) ∧
      ((∀ channel ∈ channels (Text.trim text), IsDecimal channel) ↔ IsDecimal last) ∧
      CanEnd last ∧ ∀ other, CanEnd other →
        ∃ replaced, isFunction (Text.trim replaced) = true ∧
          channels (Text.trim replaced) = leading ++ [other] := by
  obtain ⟨form, formed, same⟩ := isFunction_iff.mp accepted
  rw [← same]
  have listed := channels_text formed
  have leading : ∀ channel ∈ form.leading.map (fun part => part.1.text), IsDecimal channel := by
    intro channel member
    obtain ⟨part, inside, rfl⟩ := List.mem_map.mp member
    exact isDecimal_channel (formed.leading part inside).1
  refine ⟨form.leading.map (fun part => part.1.text), form.last.text, listed, ?_, leading, ?_,
    ⟨form.last, formed.last, rfl⟩, ?_⟩
  · rw [List.length_map]
    exact formed.count
  · rw [listed, List.forall_mem_append, List.forall_mem_singleton, and_iff_right leading]
  · rintro _ ⟨last, ends, rfl⟩
    have replaced : { form with last := last }.WellFormed := { formed with last := ends }
    refine ⟨FunctionForm.text { form with last := last }, ?_, ?_⟩
    · rw [Text.trim_of_tight (tight_text replaced)]
      exact isFunction_iff.mpr ⟨_, replaced, rfl⟩
    · rw [Text.trim_of_tight (tight_text replaced)]
      exact channels_text replaced

/-- A function with a fraction for its last channel. -/
def halfBlack : List Char :=
  "rgba(0, 0, 0, 0.5)".toList

theorem halfBlack_decimal :
    isFunction (Text.trim halfBlack) = true ∧
      ∀ channel ∈ channels (Text.trim halfBlack), IsDecimal channel := by
  have accepted : isFunction (Text.trim halfBlack) = true := by decide
  have listed : channels (Text.trim halfBlack) = [['0'], ['0'], ['0']] ++ [['0', '.', '5']] := by
    decide
  obtain ⟨leading, last, split, _, _, decimal, _⟩ := channels_decimal_iff accepted
  obtain ⟨_, same⟩ := List.append_inj' (listed.symm.trans split) rfl
  refine ⟨accepted, decimal.mpr ?_⟩
  rw [← (List.cons.inj same).1]
  decide

/-- A function with points only for its last channel. -/
def pointsOnly : List Char :=
  "rgb(1,2,...)".toList

/-- Points without a digit are accepted as a last channel. -/
theorem pointsOnly_not_decimal :
    isValid pointsOnly = true ∧ isFunction (Text.trim pointsOnly) = true ∧
      ¬ ∀ channel ∈ channels (Text.trim pointsOnly), IsDecimal channel := by
  refine ⟨by decide, by decide, fun all => ?_⟩
  have points : IsDecimal ['.', '.', '.'] := all _ (by decide)
  revert points
  decide

end EditableTemplate.Color
