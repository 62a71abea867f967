import EditableTemplate.Template.Span
import Mathlib.Data.List.Chain

/-!
# Cutting a source at its placeholders

A text is unpaired in a brace if the brace never follows itself in it. A source whose literal texts
are unpaired in opening braces and whose placeholder bodies are unpaired in both is cut exactly
between them (`Span.scanFrom_text`, `Span.scanFrom_opening`, `Span.scanFrom_braced`): the scanner
looks for the first pair of each brace, and an unpaired text holds none, not even together with the
brace after it.
-/

namespace EditableTemplate

/-- A character never follows itself in a text. -/
def Unpaired (mark : Char) (text : List Char) : Prop :=
  text.IsChain fun first second => ¬(first = mark ∧ second = mark)

/-- A mark is not twice in a row exactly if it never follows itself. -/
theorem not_within_iff_isChain {α : Type} {mark : α} {text : List α} :
    ¬[mark, mark] <:+: text ↔
      text.IsChain fun first second => ¬(first = mark ∧ second = mark) := by
  constructor
  · intro absent
    apply List.isChain_iff_forall_rel_of_append_cons_cons.mpr
    rintro first second before after rfl ⟨rfl, rfl⟩
    exact absent ⟨before, after, by simp⟩
  · rintro unpaired ⟨before, after, same⟩
    rw [List.append_assoc] at same
    exact List.isChain_iff_forall_rel_of_append_cons_cons.mp unpaired same.symm ⟨rfl, rfl⟩

/-- A text is unpaired if two of the character never stand together in it. -/
theorem unpaired_iff_not_within {mark : Char} {text : List Char} :
    Unpaired mark text ↔ ¬[mark, mark] <:+: text :=
  not_within_iff_isChain.symm

/-- Unpaired texts stay so together unless the character stands on both sides of where they meet. -/
theorem Unpaired.append {mark : Char} {first second : List Char} (left : Unpaired mark first)
    (right : Unpaired mark second)
    (apart : ¬(first.getLast? = some mark ∧ second.head? = some mark)) :
    Unpaired mark (first ++ second) := by
  apply List.IsChain.append left right
  intro last ended next leads marks
  obtain ⟨rfl, rfl⟩ := marks
  exact apart ⟨ended, leads⟩

/-- An unpaired text that does not end in the character stays so if the character follows. -/
theorem Unpaired.concat {mark : Char} {text : List Char} (unpaired : Unpaired mark text)
    (last : text.getLast? ≠ some mark) : Unpaired mark (text ++ [mark]) :=
  unpaired.append (.singleton mark) fun marks => last marks.1

/-- A text without a pair is not broken. -/
theorem breakAtPair?_of_unpaired {mark : Char} {text : List Char} (unpaired : Unpaired mark text) :
    breakAtPair? mark text = none := by
  cases broken : breakAtPair? mark text with
  | none => rfl
  | some parts =>
      obtain ⟨before, after⟩ := parts
      exact (unpaired_iff_not_within.mp unpaired
        ⟨before, after, by simp [eq_of_breakAtPair? broken]⟩).elim

/-- A text that starts with a pair is broken there. -/
theorem breakAtPair?_pair (mark : Char) (after : List Char) :
    breakAtPair? mark (mark :: mark :: after) = some ([], after) := by
  rw [breakAtPair?, if_pos ⟨rfl, rfl⟩]

/-- The first pair of a character stands where an unpaired text ends. -/
theorem breakAtPair?_append {mark : Char} {before : List Char}
    (unpaired : Unpaired mark (before ++ [mark])) (after : List Char) :
    breakAtPair? mark (before ++ mark :: mark :: after) = some (before, after) := by
  induction before with
  | nil => exact breakAtPair?_pair mark after
  | cons first rest ih =>
      have tail := ih (List.IsChain.tail unpaired)
      cases rest with
      | nil =>
          have apart : ¬(first = mark ∧ mark = mark) := List.isChain_pair.mp unpaired
          rw [List.nil_append] at tail
          rw [List.cons_append, List.nil_append, breakAtPair?, if_neg apart, tail]
          rfl
      | cons second rest =>
          have apart := (List.isChain_cons_cons.mp unpaired).1
          rw [List.cons_append] at tail
          rw [List.cons_append, List.cons_append, breakAtPair?, if_neg apart, tail]
          rfl

/-- There is no pair of a character exactly in an unpaired text. -/
theorem breakAtPair?_eq_none_iff {mark : Char} {text : List Char} :
    breakAtPair? mark text = none ↔ Unpaired mark text := by
  refine ⟨fun absent => ?_, breakAtPair?_of_unpaired⟩
  induction text with
  | nil => exact .nil
  | cons first rest ih =>
      cases rest with
      | nil => exact .singleton first
      | cons second rest =>
          rw [breakAtPair?] at absent
          split at absent
          · cases absent
          · rename_i apart
            exact .cons_cons apart (ih (Option.map_eq_none_iff.mp absent))

/-- What lies before the first pair of a character is unpaired, even with the character after it. -/
theorem unpaired_of_breakAtPair? {mark : Char} {text before after : List Char}
    (broken : breakAtPair? mark text = some (before, after)) :
    Unpaired mark (before ++ [mark]) := by
  induction text generalizing before with
  | nil => cases broken
  | cons first rest ih =>
      cases rest with
      | nil => cases broken
      | cons second rest =>
          rw [breakAtPair?] at broken
          split at broken
          · obtain ⟨rfl, _⟩ : [] = before ∧ rest = after := by simpa using broken
            exact .singleton mark
          · rename_i apart
            obtain ⟨⟨tail, _⟩, found, parts⟩ := Option.map_eq_some_iff.mp broken
            obtain ⟨rfl, rfl⟩ := Prod.mk.inj parts
            have whole := eq_of_breakAtPair? found
            have unpaired := ih found
            cases tail with
            | nil =>
                obtain ⟨rfl, _⟩ := List.cons.inj whole
                exact .cons_cons apart unpaired
            | cons next tail =>
                obtain ⟨rfl, _⟩ := List.cons.inj whole
                exact .cons_cons apart unpaired

namespace Span

/-- One step of the scanner: what lies before the next placeholder, and that placeholder. -/
theorem scanFrom_eq (offset : Nat) (source : List Char) :
    scanFrom offset source =
      match breakAtPair? '{' source with
      | none => .ok (ofText offset source)
      | some (before, inside) =>
        match breakAtPair? '}' inside with
        | none => .error (.malformed .unterminatedPlaceholder ↑(offset + before.length))
        | some (body, after) =>
          match breakAtPair? '{' body with
          | some (outer, _) =>
            .error (.malformed .nestedPlaceholder ↑(offset + before.length + 2 + outer.length))
          | none => (scanFrom (ofBody (offset + before.length) body).stop after).map fun spans =>
            ofText offset before ++ ofBody (offset + before.length) body :: spans := by
  fun_cases scanFrom offset source with
  | case1 absent => simp only [absent]
  | case2 before inside opening start unclosed =>
      simp only [opening, unclosed]
      rfl
  | case3 before inside opening start body after closing outer inner nested =>
      simp only [opening, closing, nested]
      rfl
  | case4 before inside opening start body after closing flat span =>
      simp only [opening, closing, flat]
      rfl

/-- A source without a pair of opening braces is one literal text. -/
theorem scanFrom_text {text : List Char} (unpaired : Unpaired '{' text) (offset : Nat) :
    scanFrom offset text = .ok (ofText offset text) := by
  rw [scanFrom_eq, breakAtPair?_of_unpaired unpaired]

/-- A literal text is cut from the source that it starts. -/
theorem scanFrom_opening {before : List Char} (text : Unpaired '{' (before ++ ['{']))
    (offset : Nat) (inside : List Char) :
    scanFrom offset (before ++ '{' :: '{' :: inside) =
      (scanFrom (offset + before.length) ('{' :: '{' :: inside)).map
        (ofText offset before ++ ·) := by
  rw [scanFrom_eq, scanFrom_eq (offset + before.length), breakAtPair?_append text,
    breakAtPair?_pair]
  simp only [List.length_nil, Nat.add_zero]
  cases breakAtPair? '}' inside with
  | none => rfl
  | some parts =>
      obtain ⟨body, after⟩ := parts
      cases nested : breakAtPair? '{' body with
      | some pair => simp only [nested]; rfl
      | none =>
          simp only [nested]
          cases scanFrom (ofBody (offset + before.length) body).stop after with
          | error failure => rfl
          | ok spans => rfl

/-- A placeholder is cut from the source that it starts. -/
theorem scanFrom_braced {body : List Char} (flat : Unpaired '{' body)
    (closed : Unpaired '}' (body ++ ['}'])) (offset : Nat) (after : List Char) :
    scanFrom offset ('{' :: '{' :: (body ++ '}' :: '}' :: after)) =
      (scanFrom (ofBody offset body).stop after).map (ofBody offset body :: ·) := by
  rw [scanFrom_eq, breakAtPair?_pair]
  simp only [breakAtPair?_append closed, breakAtPair?_of_unpaired flat]
  rfl

/-- A literal text and a placeholder are cut from the source that they start. -/
theorem scanFrom_body {before body after : List Char} {offset : Nat} {spans : List Span}
    (text : Unpaired '{' (before ++ ['{'])) (flat : Unpaired '{' body)
    (closed : Unpaired '}' (body ++ ['}']))
    (scanned : scanFrom (ofBody (offset + before.length) body).stop after = .ok spans) :
    scanFrom offset (before ++ '{' :: '{' :: (body ++ '}' :: '}' :: after)) =
      .ok (ofText offset before ++ ofBody (offset + before.length) body :: spans) := by
  rw [scanFrom_opening text, scanFrom_braced flat closed, scanned]
  rfl

end Span

end EditableTemplate
