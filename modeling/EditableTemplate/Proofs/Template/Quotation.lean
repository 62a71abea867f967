import EditableTemplate.Proofs.Template.Lexeme
import Mathlib.Algebra.Group.Even
import Mathlib.Algebra.Ring.Parity

/-!
# Where a quoted text ends

The inside of a quoted text (`QuotedBody`) consists of ordinary characters and of pairs of a
backslash and any character. It is what the next quote closes: before that quote an even run of
backslashes stands, and before each quote inside an odd one (`quotedBody_iff`). So the closing quote
is the first one that an odd run of backslashes does not precede, and that is where a text is split
(`splitQuoted?_eq_some_iff`).
-/

namespace EditableTemplate

/-- The inside of a quoted text. A backslash stands before any character. -/
inductive QuotedBody : List Char → Prop
  /-- Nothing is quoted. -/
  | nil : QuotedBody []
  /-- A character that is neither a backslash nor a quote. -/
  | ordinary {c : Char} {rest : List Char} (plain : c ≠ '\\') (inside : c ≠ quoteMark)
      (tail : QuotedBody rest) : QuotedBody (c :: rest)
  /-- A backslash and the character after it. -/
  | escaped (c : Char) {rest : List Char} (tail : QuotedBody rest) : QuotedBody ('\\' :: c :: rest)

/-- A character that starts neither a last backslash nor an escape is no backslash. -/
theorem ne_backslash_of_not_escape {c : Char} {rest : List Char}
    (single : c = '\\' → rest = [] → False)
    (paired : ∀ d more, c = '\\' → rest = d :: more → False) : c ≠ '\\' := by
  rintro rfl
  cases rest with
  | nil => exact single rfl rfl
  | cons d more => exact paired d more rfl rfl

/-- How many backslashes a text ends with. -/
def finalBackslashes (text : List Char) : Nat :=
  (text.reverse.takeWhile (· = '\\')).length

/-- A quote after the text closes it: an odd run of backslashes stands before each quote of the
text, but not before that one. -/
structure NextQuoteCloses (body : List Char) : Prop where
  inside : ∀ before after, body = before ++ quoteMark :: after → Odd (finalBackslashes before)
  last : Even (finalBackslashes body)

theorem finalBackslashes_cons {c : Char} (plain : c ≠ '\\') (text : List Char) :
    finalBackslashes (c :: text) = finalBackslashes text := by
  rw [finalBackslashes, finalBackslashes, List.reverse_cons, List.takeWhile_append]
  split
  · rename_i whole
    simp [plain, whole]
  · rfl

/-- Two characters, of which the first is a backslash, do not change whether a run is even. -/
theorem even_finalBackslashes_cons_cons (c : Char) (text : List Char) :
    Even (finalBackslashes ('\\' :: c :: text)) ↔ Even (finalBackslashes text) := by
  have regrouped : ('\\' :: c :: text).reverse = text.reverse ++ [c, '\\'] := by simp
  rw [finalBackslashes, finalBackslashes, regrouped, List.takeWhile_append]
  split
  · -- only if the rest is all backslashes do the two characters count
    rename_i whole
    by_cases backslash : c = '\\'
    · simp [backslash, whole, Nat.even_add]
    · simp [backslash, whole]
  · rfl

/-- A backslash and a character in front leave an odd run at the end odd. -/
theorem odd_finalBackslashes_cons_cons (c : Char) (text : List Char) :
    Odd (finalBackslashes ('\\' :: c :: text)) ↔ Odd (finalBackslashes text) := by
  rw [← Nat.not_even_iff_odd, even_finalBackslashes_cons_cons, Nat.not_even_iff_odd]

theorem nextQuoteCloses_nil : NextQuoteCloses [] where
  inside := by simp
  last := by decide

/-- Behind a plain character the next quote closes as without it, unless it is a quote itself. -/
theorem nextQuoteCloses_cons_iff {c : Char} (plain : c ≠ '\\') {rest : List Char} :
    NextQuoteCloses (c :: rest) ↔ c ≠ quoteMark ∧ NextQuoteCloses rest := by
  constructor
  · rintro ⟨inside, last⟩
    refine ⟨?_, ?_, ?_⟩
    · rintro rfl
      exact absurd (inside [] rest rfl) (by decide)
    · rintro before after rfl
      have odd := inside (c :: before) after rfl
      rwa [finalBackslashes_cons plain] at odd
    · rwa [finalBackslashes_cons plain] at last
  · rintro ⟨other, inside, last⟩
    refine ⟨?_, ?_⟩
    · intro before after whole
      cases before with
      | nil => exact (other (List.cons.inj whole).1).elim
      | cons first before =>
          obtain ⟨rfl, tail⟩ := List.cons.inj whole
          rw [finalBackslashes_cons plain]
          exact inside before after tail
    · rwa [finalBackslashes_cons plain]

/-- Behind a backslash and a character the next quote closes as without them. -/
theorem nextQuoteCloses_cons_cons_iff {c : Char} {rest : List Char} :
    NextQuoteCloses ('\\' :: c :: rest) ↔ NextQuoteCloses rest := by
  constructor
  · rintro ⟨inside, last⟩
    refine ⟨?_, (even_finalBackslashes_cons_cons c rest).mp last⟩
    rintro before after rfl
    exact (odd_finalBackslashes_cons_cons c before).mp (inside ('\\' :: c :: before) after rfl)
  · rintro ⟨inside, last⟩
    refine ⟨?_, (even_finalBackslashes_cons_cons c rest).mpr last⟩
    intro before after whole
    match before with
    | [] => exact absurd (List.cons.inj whole).1 (by decide)
    | [first] =>
        obtain ⟨rfl, _⟩ := List.cons.inj whole
        decide
    | first :: second :: before =>
        rw [List.cons_append, List.cons_append] at whole
        obtain ⟨⟨⟩, pair⟩ := List.cons.inj whole
        obtain ⟨rfl, tail⟩ := List.cons.inj pair
        exact (odd_finalBackslashes_cons_cons c before).mpr (inside before after tail)

/-- The inside of a quoted text is what the next quote closes. -/
theorem quotedBody_iff {body : List Char} : QuotedBody body ↔ NextQuoteCloses body := by
  constructor
  · intro quoted
    induction quoted with
    | nil => exact nextQuoteCloses_nil
    | ordinary plain inside tail ih => exact (nextQuoteCloses_cons_iff plain).mpr ⟨inside, ih⟩
    | escaped c tail ih => exact nextQuoteCloses_cons_cons_iff.mpr ih
  · intro closes
    -- the recursion of `unescape` tells a last backslash from one before a character
    fun_induction unescape body with
    | case1 => exact .nil
    | case2 => exact absurd closes.last (by decide)
    | case3 c rest ih => exact .escaped c (ih (nextQuoteCloses_cons_cons_iff.mp closes))
    | case4 c rest single paired ih =>
        have plain := ne_backslash_of_not_escape single paired
        obtain ⟨inside, tail⟩ := (nextQuoteCloses_cons_iff plain).mp closes
        exact .ordinary plain inside (ih tail)

/-- A quoted text is split at the quote that closes it. -/
theorem splitQuoted?_eq_some_iff {text body after : List Char} :
    splitQuoted? text = some (body, after) ↔
      text = body ++ quoteMark :: after ∧ QuotedBody body := by
  constructor
  · intro split
    refine ⟨eq_of_splitQuoted? split, ?_⟩
    fun_induction splitQuoted? text generalizing body with
    | case1 => cases split
    | case2 => cases split
    | case3 c rest ih =>
        obtain ⟨⟨inner, _⟩, found, parts⟩ := Option.map_eq_some_iff.mp split
        obtain ⟨rfl, rfl⟩ := Prod.mk.inj parts
        exact .escaped c (ih found)
    | case4 rest =>
        obtain ⟨rfl, _⟩ := Prod.mk.inj (Option.some.inj split)
        exact .nil
    | case5 c rest single paired ordinary ih =>
        obtain ⟨⟨inner, _⟩, found, parts⟩ := Option.map_eq_some_iff.mp split
        obtain ⟨rfl, rfl⟩ := Prod.mk.inj parts
        exact .ordinary (ne_backslash_of_not_escape single paired) ordinary (ih found)
  · rintro ⟨rfl, quoted⟩
    induction quoted with
    | nil => rfl
    | ordinary plain inside tail ih =>
        rw [List.cons_append, splitQuoted?_cons plain inside, ih]
        rfl
    | escaped c tail ih =>
        rw [List.cons_append, List.cons_append, splitQuoted?, ih]
        rfl

/-- At most one quoted text stands at a quote. -/
theorem QuotedBody.append_inj {first second after other : List Char} (left : QuotedBody first)
    (right : QuotedBody second)
    (same : first ++ quoteMark :: after = second ++ quoteMark :: other) :
    first = second ∧ after = other := by
  have split : splitQuoted? (first ++ quoteMark :: after) = some (first, after) :=
    splitQuoted?_eq_some_iff.mpr ⟨rfl, left⟩
  rw [splitQuoted?_eq_some_iff.mpr ⟨same, right⟩] at split
  obtain ⟨rfl, rfl⟩ := Prod.mk.inj (Option.some.inj split)
  exact ⟨rfl, rfl⟩

end EditableTemplate
