import EditableTemplate.Proofs.Template.Span
import EditableTemplate.Text.Utf8

/-!
# Unified line ends

Unifying its line ends changes a text exactly if it holds a carriage return
(`Utf8.unifyNewlines_eq_self_iff`). Any other character but the newline follows itself after it just
where it did before, so the text is broken at its pairs as it was (`Utf8.breakAtPair?_unify`).
-/

namespace EditableTemplate

/-- One step of the search for a pair. -/
theorem breakAtPair?_cons (mark first : Char) (rest : List Char) :
    breakAtPair? mark (first :: rest) =
      if first = mark ∧ rest.head? = some mark then some ([], rest.tail)
      else (breakAtPair? mark rest).map (Prod.map (first :: ·) id) := by
  cases rest with
  | nil => simp [breakAtPair?]
  | cons second rest =>
      simp only [breakAtPair?, List.head?_cons, Option.some_inj, List.tail_cons]
      rfl

theorem breakAtPair?_cons_of_ne {mark first : Char} (other : first ≠ mark) (rest : List Char) :
    breakAtPair? mark (first :: rest) =
      (breakAtPair? mark rest).map (Prod.map (first :: ·) id) := by
  rw [breakAtPair?_cons, if_neg fun marks => other marks.1]

namespace Utf8

theorem unifyNewlines_cons {c : Char} (inLine : c ≠ '\r') (rest : List Char) :
    unifyNewlines (c :: rest) = c :: unifyNewlines rest := by
  rw [unifyNewlines.eq_4]
  · exact fun _ same _ => inLine same
  · exact inLine

/-- A carriage return without a newline behind it becomes a newline. -/
theorem unifyNewlines_return {rest : List Char} (alone : rest.head? ≠ some '\n') :
    unifyNewlines ('\r' :: rest) = '\n' :: unifyNewlines rest := by
  rw [unifyNewlines.eq_3]
  rintro others rfl
  exact alone rfl

/-- No carriage return is left. -/
theorem not_mem_unifyNewlines (text : List Char) : '\r' ∉ unifyNewlines text := by
  fun_induction unifyNewlines text with
  | case1 => exact List.not_mem_nil
  | case2 rest ih => exact List.not_mem_cons_of_ne_of_not_mem (by decide) ih
  | case3 rest _ ih => exact List.not_mem_cons_of_ne_of_not_mem (by decide) ih
  | case4 c rest _ inLine ih => exact List.not_mem_cons_of_ne_of_not_mem (Ne.symm inLine) ih

/-- A text is kept as it is exactly where it has no carriage return. -/
theorem unifyNewlines_eq_self_iff {text : List Char} :
    unifyNewlines text = text ↔ '\r' ∉ text := by
  constructor
  · intro same
    rw [← same]
    exact not_mem_unifyNewlines text
  · intro absent
    induction text with
    | nil => rfl
    | cons c rest ih =>
        rw [unifyNewlines_cons (Ne.symm (List.ne_of_not_mem_cons absent)),
          ih (List.not_mem_of_not_mem_cons absent)]

/-- Whether a text starts with a character that is no line end does not change. -/
theorem head?_unifyNewlines {mark : Char} (inLine : mark ≠ '\r' ∧ mark ≠ '\n')
    (text : List Char) : (unifyNewlines text).head? = some mark ↔ text.head? = some mark := by
  fun_cases unifyNewlines text with
  | case1 => rfl
  | case2 rest => simp [inLine.1.symm, inLine.2.symm]
  | case3 rest => simp [inLine.1.symm, inLine.2.symm]
  | case4 c rest => rfl

/-- A character that ends no line is found next to itself where it stood so before. -/
theorem breakAtPair?_unify {mark : Char} (inLine : mark ≠ '\r' ∧ mark ≠ '\n') (text : List Char) :
    breakAtPair? mark (unifyNewlines text) =
      (breakAtPair? mark text).map (Prod.map unifyNewlines unifyNewlines) := by
  fun_induction unifyNewlines text with
  | case1 => rfl
  | case2 rest ih =>
      rw [breakAtPair?_cons_of_ne inLine.1.symm, breakAtPair?_cons_of_ne inLine.2.symm,
        breakAtPair?_cons_of_ne inLine.2.symm, ih, Option.map_map, Option.map_map, Option.map_map]
      rfl
  | case3 rest alone ih =>
      rw [breakAtPair?_cons_of_ne inLine.1.symm, breakAtPair?_cons_of_ne inLine.2.symm, ih,
        Option.map_map, Option.map_map]
      refine Option.map_congr fun (before, after) broken => ?_
      have lone : before.head? ≠ some '\n' := by
        intro leads
        cases before with
        | nil => cases leads
        | cons c before =>
            obtain rfl := Option.some.inj leads
            exact alone _ (eq_of_breakAtPair? broken)
      exact congrArg (Prod.mk · (unifyNewlines after)) (unifyNewlines_return lone).symm
  | case4 c rest _ other ih =>
      simp only [breakAtPair?_cons, head?_unifyNewlines inLine, ih]
      split
      · rename_i pair
        cases rest with
        | nil => cases pair.2
        | cons second rest =>
            obtain rfl := Option.some.inj pair.2
            rw [unifyNewlines_cons inLine.1]
            rfl
      · rw [Option.map_map, Option.map_map]
        refine Option.map_congr fun (before, after) _ => ?_
        exact congrArg (Prod.mk · (unifyNewlines after)) (unifyNewlines_cons other before).symm

end Utf8

end EditableTemplate
