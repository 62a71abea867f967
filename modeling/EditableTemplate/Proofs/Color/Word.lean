import EditableTemplate.Proofs.Color.Form
import Mathlib.Data.List.Forall2

/-!
# Words in colors

Letter case is ignored in a color function, and the long form of the letter `s` counts as the
letter. A word is read off a text exactly if characters for its letters start the text
(`Color.dropWord?_eq_some_iff`, `Color.map_lowerFunction_eq_iff`), and a mark exactly if the mark
itself does (`Color.dropWord?_mark`). An optional word is left out where the text starts with
another letter (`Color.dropOptional_of_ne`).
-/

namespace EditableTemplate.Color

variable {text rest word spelled : List Char} {c letter mark : Char}

/-! ## Letters and marks -/

/-- The lower case letters are those from `a` to `z`, by their numbers. -/
theorem isLower_iff : c.isLower = true ↔ 97 ≤ c.toNat ∧ c.toNat ≤ 122 := by
  change (decide ('a'.val ≤ c.val) && decide (c.val ≤ 'z'.val)) = true ↔ _
  simp [UInt32.le_iff_toNat_le, ← Char.toNat_val]

/-- The lower case of a letter stands 32 places further on. -/
theorem toNat_toLower (c : Char) :
    c.toLower.toNat = if 65 ≤ c.toNat ∧ c.toNat ≤ 90 then c.toNat + 32 else c.toNat := by
  unfold Char.toLower
  simp only [UInt32.le_iff_toNat_le, ge_iff_le, ← Char.toNat_val]
  split
  · rename_i upper
    have bounds : 65 ≤ c.val.toNat ∧ c.val.toNat ≤ 90 := upper
    have further : ('a'.val - 'A'.val).toNat = 32 := rfl
    rw [if_pos bounds, UInt32.toNat_add, further]
    omega
  · rename_i other
    exact (if_neg other).symm

/-- The upper case of a letter stands 32 places before it, which is added around the word size. -/
theorem toNat_toUpper (c : Char) :
    c.toUpper.toNat = if 97 ≤ c.toNat ∧ c.toNat ≤ 122 then c.toNat - 32 else c.toNat := by
  unfold Char.toUpper
  simp only [UInt32.le_iff_toNat_le, ← Char.toNat_val]
  split
  · rename_i lower
    have bounds : 97 ≤ c.val.toNat ∧ c.val.toNat ≤ 122 := lower
    have around : ('A'.val - 'a'.val).toNat = 2 ^ 32 - 32 := rfl
    rw [if_pos bounds, UInt32.toNat_add, around]
    omega
  · rename_i other
    exact (if_neg other).symm

/-- The lower case of a character is a letter exactly if it is the letter, in either case. -/
theorem toLower_eq_iff (lower : letter.isLower = true) :
    c.toLower = letter ↔ c = letter ∨ c = letter.toUpper := by
  have bounds := isLower_iff.mp lower
  simp only [← Char.toNat_inj, toNat_toLower, toNat_toUpper, if_pos bounds]
  split <;> omega

/-- What is no letter is the lower case of itself only. -/
theorem eq_of_toLower_eq (other : mark.isLower = false) (same : c.toLower = mark) : c = mark := by
  have outside := Bool.eq_false_iff.mp other
  rw [ne_eq, isLower_iff] at outside
  rw [← Char.toNat_inj, toNat_toLower] at same
  rw [← Char.toNat_inj]
  split at same <;> omega

theorem lowerFunction_long : lowerFunction (Char.ofNat 0x17F) = 's' := by
  decide

/-- Every other character becomes its own lower case. -/
theorem lowerFunction_of_ne (other : c ≠ Char.ofNat 0x17F) : lowerFunction c = c.toLower := by
  unfold lowerFunction
  rw [if_neg]
  intro long
  exact other (by rw [← long, Char.ofNat_toNat])

/-- The lower case of a character is a letter exactly if the character stands for the letter. -/
theorem lowerFunction_eq_iff (lower : letter.isLower = true) :
    lowerFunction c = letter ↔ IsLetter letter c := by
  by_cases long : c = Char.ofNat 0x17F
  · have other : ¬ (c = letter ∨ c = letter.toUpper) := by
      rw [← toLower_eq_iff lower, long]
      rintro rfl
      cases lower
    rw [IsLetter, ← or_assoc, or_iff_right other, long, lowerFunction_long]
    exact ⟨fun same => ⟨same.symm, rfl⟩, fun given => given.1.symm⟩
  · rw [lowerFunction_of_ne long, toLower_eq_iff lower, IsLetter]
    simp only [long, and_false, or_false]

/-- A mark is the lower case of itself only. -/
theorem eq_of_lowerFunction_eq (other : mark.isLower = false) (same : lowerFunction c = mark) :
    c = mark := by
  by_cases long : c = Char.ofNat 0x17F
  · rw [long, lowerFunction_long] at same
    rw [← same] at other
    cases other
  · rw [lowerFunction_of_ne long] at same
    exact eq_of_toLower_eq other same

/-- The lower case of a text is a word exactly if the text spells it. -/
theorem map_lowerFunction_eq_iff (lower : word.all Char.isLower = true) :
    spelled.map lowerFunction = word ↔ Spells word spelled := by
  induction word generalizing spelled with
  | nil => rw [List.map_eq_nil_iff, Spells, List.forall₂_nil_left_iff]
  | cons letter word ih =>
    obtain ⟨first, others⟩ := Bool.and_eq_true_iff.mp lower
    constructor
    · intro same
      obtain ⟨c, more, rfl, start, left⟩ := List.map_eq_cons_iff.mp same
      exact .cons ((lowerFunction_eq_iff first).mp start) ((ih others).mp left)
    · rintro (_ | ⟨start, left⟩)
      rw [List.map_cons, (lowerFunction_eq_iff first).mpr start, (ih others).mpr left]

/-! ## Words -/

/-- A word is read off a text exactly if the text starts with what has its letters. -/
theorem dropWord?_eq_some_iff :
    dropWord? word text = some rest ↔
      ∃ spelled, spelled.map lowerFunction = word ∧ text = spelled ++ rest := by
  unfold dropWord?
  constructor
  · intro dropped
    split at dropped
    · rename_i same
      obtain rfl := Option.some.inj dropped
      exact ⟨_, same, (List.take_append_drop ..).symm⟩
    · cases dropped
  · rintro ⟨spelled, rfl, rfl⟩
    rw [List.length_map, List.take_left, if_pos rfl, List.drop_left]

/-- A word is not read off a text that starts with another letter. -/
theorem dropWord?_of_ne (apart : ∀ c ∈ text.head?, lowerFunction c ≠ letter) :
    dropWord? (letter :: word) text = none := by
  rw [Option.eq_none_iff_forall_ne_some]
  intro rest dropped
  obtain ⟨spelled, same, rfl⟩ := dropWord?_eq_some_iff.mp dropped
  obtain ⟨c, more, rfl, start, _⟩ := List.map_eq_cons_iff.mp same
  exact apart c rfl start

/-- A text whose lower case is a mark is the mark. -/
theorem eq_of_map_lowerFunction_eq (other : mark.isLower = false)
    (same : spelled.map lowerFunction = [mark]) : spelled = [mark] := by
  obtain ⟨c, rfl, start⟩ := List.map_eq_singleton_iff.mp same
  rw [eq_of_lowerFunction_eq other start]

/-- A mark that is no letter is dropped where it stands. -/
theorem dropWord?_mark (mark : Char) (kept : lowerFunction mark = mark)
    (other : mark.isLower = false) :
    dropWord? [mark] text = some rest ↔ text = mark :: rest := by
  rw [dropWord?_eq_some_iff]
  constructor
  · rintro ⟨spelled, same, rfl⟩
    rw [eq_of_map_lowerFunction_eq other same, List.singleton_append]
  · rintro rfl
    exact ⟨[mark], by rw [List.map_singleton, kept], rfl⟩

/-- A word is left in place where the text does not start with it. -/
theorem dropOptional_eq (word text : List Char) :
    (∃ spelled, spelled.map lowerFunction = word ∧ text = spelled ++ dropOptional word text) ∨
      dropOptional word text = text := by
  unfold dropOptional
  cases dropped : dropWord? word text with
  | none => exact .inr rfl
  | some rest => exact .inl (dropWord?_eq_some_iff.mp dropped)

/-- A word is dropped from the start of a text in whatever case it is written. -/
theorem dropOptional_append (spelled : List Char) (same : spelled.map lowerFunction = word) :
    dropOptional word (spelled ++ rest) = rest := by
  rw [dropOptional, dropWord?_eq_some_iff.mpr ⟨spelled, same, rfl⟩, Option.getD_some]

/-- A text that starts with another letter stays as it is. -/
theorem dropOptional_of_ne (apart : ∀ c ∈ text.head?, lowerFunction c ≠ letter) :
    dropOptional (letter :: word) text = text := by
  rw [dropOptional, dropWord?_of_ne apart, Option.getD_none]

end EditableTemplate.Color
