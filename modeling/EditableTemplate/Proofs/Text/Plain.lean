import EditableTemplate.Console.ControlSequence
import Mathlib.Data.List.Basic

/-!
# Texts without halves of surrogate pairs

A text of characters only can be written out (`CodePoints.plain_eq_ok`), and so can any text that is
left of it or made of such texts. Removing control sequences leaves a part of the text
(`ControlSequence.remove_sublist`).
-/

namespace EditableTemplate

namespace CodePoints

/-- A text holds characters only. -/
def IsPlain (text : CodePoints) : Prop :=
  ∃ chars, text = ofChars chars

theorem isPlain_ofString (text : String) : (ofString text).IsPlain :=
  ⟨text.toList, rfl⟩

/-- A text is plain characters exactly where it is made of these. -/
theorem plain_eq_ok {text : CodePoints} {chars : List Char} :
    text.plain = .ok chars ↔ text = ofChars chars := by
  refine ⟨eq_ofChars_of_plain, ?_⟩
  rintro rfl
  exact plain_ofChars chars

theorem plain?_eq_some_iff {text : CodePoints} {chars : List Char} :
    text.plain? = some chars ↔ text = ofChars chars := by
  rw [plain?, ← plain_eq_ok]
  cases text.plain with
  | error run => simp [Except.toOption]
  | ok found => simp [Except.toOption]

/-- Every part of a plain text is plain. -/
theorem IsPlain.of_sublist {text part : CodePoints} (plain : text.IsPlain)
    (sublist : part.Sublist text) : part.IsPlain := by
  obtain ⟨chars, rfl⟩ := plain
  obtain ⟨left, _, rfl⟩ := List.sublist_map_iff.mp sublist
  exact ⟨left, rfl⟩

/-- Plain parts make a plain text. -/
theorem isPlain_flatten {parts : List CodePoints} (plain : ∀ part ∈ parts, part.IsPlain) :
    IsPlain parts.flatten := by
  induction parts with
  | nil => exact ⟨[], rfl⟩
  | cons part rest ih =>
      obtain ⟨first, rfl⟩ := plain part List.mem_cons_self
      obtain ⟨later, flat⟩ := ih fun other member => plain other (List.mem_cons_of_mem _ member)
      refine ⟨first ++ later, ?_⟩
      rw [List.flatten_cons, flat, ofChars, ofChars, ofChars, List.map_append]

end CodePoints

namespace ControlSequence

/-- What is left behind a control sequence is the end of the text. -/
theorem suffix_of_dropRest? {text after : CodePoints} (found : dropRest? text = some after) :
    after <:+ text := by
  have left : (text.dropWhile isParameter).dropWhile isIntermediate <:+ text :=
    (List.dropWhile_suffix _).trans (List.dropWhile_suffix _)
  rw [dropRest?] at found
  split at found
  · cases found
  · rename_i final rest same
    split at found
    · cases found
      rw [same] at left
      exact (List.suffix_cons final after).trans left
    · cases found

/-- What follows a sequence is the end of the text. -/
theorem suffix_of_drop? {text after : CodePoints} (found : drop? text = some after) :
    after <:+ text := by
  rw [drop?.eq_def] at found
  split at found
  · rename_i first second rest
    split at found
    · have onward := suffix_of_dropRest? found
      exact onward.trans ((List.suffix_cons _ rest).trans (List.suffix_cons _ _))
    · cases found
  · cases found

/-- Removing sequences keeps a part of the text. -/
theorem remove_sublist (text : CodePoints) : (remove text).Sublist text := by
  fun_induction remove text with
  | case1 text after found ih => exact ih.trans (suffix_of_drop? found).sublist
  | case2 => exact .slnil
  | case3 point rest _ ih => exact ih.cons_cons point

end ControlSequence

end EditableTemplate
