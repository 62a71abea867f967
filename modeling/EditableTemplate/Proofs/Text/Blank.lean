import EditableTemplate.Text.Blank
import Mathlib.Data.List.TakeWhile

/-!
# Runs of characters and trimming

A run of characters of one class ends where a character of another class stands or the text ends.
A text is tight if it neither starts nor ends with a blank character; trimming gives a tight text
back from between any blanks (`Text.trim_padded`). What trimming leaves of any text is the part
between two runs of blanks that no blank character starts or ends (`Text.trimmed_trim`).
-/

namespace EditableTemplate.Text

/-- A run of a class is all that is taken from a text that goes on with another class. -/
theorem takeWhile_run {among : Char → Bool} {run rest : List Char}
    (inside : ∀ c ∈ run, among c = true) (outside : ∀ c ∈ rest.head?, among c = false) :
    (run ++ rest).takeWhile among = run ∧ (run ++ rest).dropWhile among = rest := by
  rw [List.takeWhile_append_of_pos inside, List.dropWhile_append_of_pos inside]
  cases rest with
  | nil => simp
  | cons c rest =>
      have other := outside c rfl
      simp [other]

/-- Nothing is taken from a text that starts with another class. -/
theorem takeWhile_outside {among : Char → Bool} {rest : List Char}
    (outside : ∀ c ∈ rest.head?, among c = false) :
    rest.takeWhile among = [] ∧ rest.dropWhile among = rest := by
  have none : ∀ c ∈ ([] : List Char), among c = true := nofun
  exact takeWhile_run none outside

/-- Between the space and the next-line character no character is blank. -/
theorem isBlank_eq_false {c : Char} (above : 0x20 < c.toNat) (below : c.toNat < 0x85) :
    isBlank c = false := by
  cases blank : isBlank c with
  | false => rfl
  | true =>
      obtain ⟨range, listed, low, high⟩ := (Ranges.covers_iff blankRanges c).mp blank
      have outside : ∀ range ∈ blankRanges, range.2 ≤ 0x20 ∨ 0x85 ≤ range.1 := by decide
      have := outside range listed
      omega

/-- A text starts and ends with characters that are not blank. -/
structure Tight (text : List Char) : Prop where
  first : ∃ c, text.head? = some c ∧ isBlank c = false
  last : ∃ c, text.getLast? = some c ∧ isBlank c = false

/-- A text without blanks is tight. -/
theorem tight_of_visible {text : List Char} (nonempty : text ≠ [])
    (visible : ∀ c ∈ text, isBlank c = false) : Tight text where
  first := ⟨text.head nonempty, List.head?_eq_some_head nonempty,
    visible _ (List.head_mem nonempty)⟩
  last := ⟨text.getLast nonempty, List.getLast?_eq_some_getLast nonempty,
    visible _ (List.getLast_mem nonempty)⟩

/-- Trimming removes the blanks around a tight text. -/
theorem trim_padded {text before after : List Char} (tight : Tight text)
    (leading : ∀ c ∈ before, isBlank c = true) (trailing : ∀ c ∈ after, isBlank c = true) :
    trim (before ++ text ++ after) = text := by
  obtain ⟨c, starts, visible⟩ := tight.first
  obtain ⟨d, ends, visible'⟩ := tight.last
  have start : trimStart (before ++ (text ++ after)) = text ++ after := by
    apply (takeWhile_run leading _).2
    intro other first
    rw [List.head?_append, starts] at first
    obtain rfl := Option.some.inj first
    exact visible
  have stop : (after.reverse ++ text.reverse).dropWhile isBlank = text.reverse := by
    apply (takeWhile_run _ _).2
    · intro other member
      exact trailing other (List.mem_reverse.mp member)
    · intro other first
      rw [List.head?_reverse, ends] at first
      obtain rfl := Option.some.inj first
      exact visible'
  rw [List.append_assoc, trim, start, trimEnd, List.reverse_append, stop, List.reverse_reverse]

/-- Trimming leaves a tight text as it is. -/
theorem trim_of_tight {text : List Char} (tight : Tight text) : trim text = text := by
  have none : ∀ c ∈ ([] : List Char), isBlank c = true := List.forall_mem_nil _
  simpa using trim_padded tight none none

/-- A tight text between two blanks is left by trimming. -/
theorem trim_between_blanks {text : List Char} (tight : Tight text) :
    trim (' ' :: (text ++ [' '])) = text := by
  have blank : ∀ c ∈ [' '], isBlank c = true := List.forall_mem_singleton.mpr (by decide)
  change trim ([' '] ++ text ++ [' ']) = text
  exact trim_padded tight blank blank

/-- A text is what is left of another one without the blank characters around it. -/
structure Trimmed (whole text : List Char) : Prop where
  between : ∃ before after, whole = before ++ text ++ after ∧
    (∀ c ∈ before, isBlank c = true) ∧ ∀ c ∈ after, isBlank c = true
  first : ∀ c ∈ text.head?, isBlank c = false
  last : ∀ c ∈ text.getLast?, isBlank c = false

/-- Behind the blanks at its start a text has a visible character, if any. -/
theorem isBlank_head_dropWhile {text : List Char} :
    ∀ c ∈ (text.dropWhile isBlank).head?, isBlank c = false := by
  intro c first
  have kept := List.head?_dropWhile_not isBlank text
  rw [Option.mem_def.mp first] at kept
  simpa using kept

/-- Trimming a text leaves what stands between the blanks at its ends. -/
theorem trimmed_trim (whole : List Char) : Trimmed whole (trim whole) := by
  have cut : whole.takeWhile isBlank ++ trim whole ++
      ((trimStart whole).reverse.takeWhile isBlank).reverse = whole := by
    rw [List.append_assoc, trim, trimEnd_append, trimStart_append]
  refine ⟨⟨_, _, cut.symm, ?_, ?_⟩, ?_, ?_⟩
  · exact fun c member => List.mem_takeWhile_imp member
  · exact fun c member => List.mem_takeWhile_imp (List.mem_reverse.mp member)
  · -- a text that starts with what trimming the end leaves starts as the whole text does
    intro c first
    have kept : (trimEnd (trimStart whole)).head? = some c := first
    have starts : c ∈ (trimStart whole).head? := by
      rw [← trimEnd_append (trimStart whole), List.head?_append, kept]
      rfl
    exact isBlank_head_dropWhile c starts
  · intro c last
    rw [trim, trimEnd, List.getLast?_reverse] at last
    exact isBlank_head_dropWhile c last

/-- What is left by trimming is tight, if it is not empty. -/
theorem Trimmed.tight {whole text : List Char} (trimmed : Trimmed whole text)
    (nonempty : text ≠ []) : Tight text where
  first := ⟨_, List.head?_eq_some_head nonempty,
    trimmed.first _ (List.head?_eq_some_head nonempty)⟩
  last := ⟨_, List.getLast?_eq_some_getLast nonempty,
    trimmed.last _ (List.getLast?_eq_some_getLast nonempty)⟩

theorem trim_trim (whole : List Char) : trim (trim whole) = trim whole := by
  by_cases nothing : trim whole = []
  · rw [nothing]
    rfl
  · exact trim_of_tight ((trimmed_trim whole).tight nothing)

/-- What is left of a text without the blanks around it is one text. -/
theorem Trimmed.trim_eq {whole text : List Char} (trimmed : Trimmed whole text) :
    trim whole = text := by
  obtain ⟨before, after, rfl, leading, trailing⟩ := trimmed.between
  by_cases nothing : text = []
  · have blank : ∀ c ∈ before ++ text ++ after, isBlank c = true := by
      rw [nothing, List.append_nil]
      exact List.forall_mem_append.mpr ⟨leading, trailing⟩
    have gone : trimStart (before ++ text ++ after) = [] := List.dropWhile_eq_nil_iff.mpr blank
    rw [trim, gone, nothing]
    rfl
  · exact trim_padded (trimmed.tight nothing) leading trailing

end EditableTemplate.Text
