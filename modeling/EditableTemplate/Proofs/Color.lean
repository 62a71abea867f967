import EditableTemplate.Color
import EditableTemplate.Proofs.Text.Blank
import EditableTemplate.Template.Lexeme
import Mathlib.Tactic.Common

/-!
# What the text of a color can hold

A color is put into a style sheet or an attribute as it is, so it must not hold a character that
ends the declaration or the attribute, or starts something else in it (`Color.breaking`). None of
the three forms lets such a character in: whatever a reader of a form passes over is inert
(`Color.Passes`), and these readers pass over the whole text of a color
(`Color.inert_of_isValid`). Letter case, the two letters outside ASCII, and the digits and blank
characters of other scripts make no difference, since no breaking character is any of them.
-/

namespace EditableTemplate.Color

/-- The characters that can end a declaration of a style sheet or the value of an attribute, or
start something else in it. -/
def breaking : List Char :=
  [';', '{', '}', '<', '>', quoteMark, Char.ofNat 0x27, ':', '\\', '/']

/-- A text holds no breaking character. -/
def Inert (text : List Char) : Prop :=
  ∀ c ∈ text, c ∉ breaking

instance (text : List Char) : Decidable (Inert text) :=
  List.decidableBAll (· ∉ breaking) text

/-- What is left of a text after some inert characters at its start. -/
def Passes (text rest : List Char) : Prop :=
  ∃ passed, text = passed ++ rest ∧ Inert passed

theorem inert_append {first second : List Char} (left : Inert first) (right : Inert second) :
    Inert (first ++ second) := by
  intro c member
  rcases List.mem_append.mp member with inside | inside
  · exact left c inside
  · exact right c inside

/-- A text of characters of a class is inert if no breaking character is of that class. -/
theorem inert_of_forall {among : Char → Bool} (apart : breaking.any among = false)
    {text : List Char} (inside : ∀ c ∈ text, among c = true) : Inert text :=
  fun c member breaks => List.any_eq_false.mp apart c breaks (inside c member)

/-- A text is inert if it spells an inert text in another case and breaking characters have none. -/
theorem inert_of_map {lower : Char → Char} {text : List Char} (inert : Inert (text.map lower))
    (kept : breaking.all (fun c => lower c == c) = true) : Inert text := by
  intro c member breaks
  have image : lower c ∈ text.map lower := List.mem_map_of_mem member
  rw [eq_of_beq (List.all_eq_true.mp kept c breaks)] at image
  exact inert c image breaks

namespace Passes

theorem refl (text : List Char) : Passes text text :=
  ⟨[], rfl, nofun⟩

theorem trans {first second third : List Char} (left : Passes first second)
    (right : Passes second third) : Passes first third := by
  obtain ⟨passed, rfl, inert⟩ := left
  obtain ⟨more, rfl, inert'⟩ := right
  exact ⟨passed ++ more, (List.append_assoc ..).symm, inert_append inert inert'⟩

/-- A text that passes to an inert one is inert. -/
theorem inert {text rest : List Char} (passes : Passes text rest) (last : Inert rest) :
    Inert text := by
  obtain ⟨passed, rfl, inside⟩ := passes
  exact inert_append inside last

theorem cons {c : Char} (apart : c ∉ breaking) (rest : List Char) : Passes (c :: rest) rest :=
  ⟨[c], rfl, List.forall_mem_singleton.mpr apart⟩

theorem dropWhile {among : Char → Bool} (apart : breaking.any among = false)
    (text : List Char) : Passes text (text.dropWhile among) :=
  ⟨text.takeWhile among, List.takeWhile_append_dropWhile.symm,
    inert_of_forall apart fun _ member => List.mem_takeWhile_imp member⟩

theorem trimStart (text : List Char) : Passes text (Text.trimStart text) :=
  dropWhile (by decide) text

/-- Dropping an inert word passes on. -/
theorem dropWord? {word text rest : List Char} (inert : Inert word)
    (dropped : Color.dropWord? word text = some rest) : Passes text rest := by
  unfold Color.dropWord? at dropped
  split at dropped
  · rename_i spelled
    obtain rfl := Option.some.inj dropped
    refine ⟨text.take word.length, (List.take_append_drop ..).symm, ?_⟩
    have image : Inert ((text.take word.length).map lowerFunction) := by rwa [spelled]
    exact inert_of_map image (by decide)
  · cases dropped

theorem dropOptional {word : List Char} (inert : Inert word) (text : List Char) :
    Passes text (Color.dropOptional word text) := by
  unfold Color.dropOptional
  cases dropped : Color.dropWord? word text with
  | none => exact refl text
  | some rest => exact dropWord? inert dropped

theorem dropDigits? {text rest : List Char} (dropped : Color.dropDigits? text = some rest) :
    Passes text rest := by
  unfold Color.dropDigits? at dropped
  split at dropped
  · cases dropped
  · obtain rfl := Option.some.inj dropped
    exact dropWhile (by decide) text

theorem dropFraction (text : List Char) : Passes text (Color.dropFraction text) := by
  fun_cases Color.dropFraction text with
  | case1 rest =>
      cases dropped : Color.dropDigits? rest with
      | none => exact refl _
      | some after => exact (cons (by decide) rest).trans (dropDigits? dropped)
  | case2 => exact refl text

/-- Dropping a channel passes on. -/
theorem dropChannel? {text rest : List Char} (dropped : Color.dropChannel? text = some rest) :
    Passes text rest := by
  obtain ⟨digits, found, rest⟩ := Option.bind_eq_some_iff.mp dropped
  obtain rfl := Option.some.inj rest
  have sign : Passes text (Color.dropOptional ['-'] text) := dropOptional (by decide) text
  have fraction := (dropDigits? found).trans (dropFraction digits)
  have percent := dropOptional (by decide : Inert ['%']) (Color.dropFraction digits)
  exact ((sign.trans fraction).trans percent).trans (dropOptional (by decide) _)

theorem dropSeparator? {text rest : List Char} (dropped : Color.dropSeparator? text = some rest) :
    Passes text rest := by
  have blanks := trimStart text
  unfold Color.dropSeparator? at dropped
  split at dropped
  · rename_i after comma
    obtain rfl := Option.some.inj dropped
    rw [comma] at blanks
    exact (blanks.trans (cons (by decide) after)).trans (trimStart after)
  · split at dropped
    · obtain rfl := Option.some.inj dropped
      exact blanks
    · cases dropped

/-- Induction on the count of channels, each with its separator. -/
theorem dropChannels? {count : Nat} {text rest : List Char}
    (dropped : Color.dropChannels? count text = some rest) : Passes text rest := by
  induction count generalizing text with
  | zero =>
      obtain rfl := Option.some.inj dropped
      exact refl text
  | succ count ih =>
      obtain ⟨afterChannel, channel, onward⟩ := Option.bind_eq_some_iff.mp dropped
      obtain ⟨next, separator, others⟩ := Option.bind_eq_some_iff.mp onward
      exact ((dropChannel? channel).trans (dropSeparator? separator)).trans (ih others)

theorem dropOpening? {text rest : List Char} (dropped : Color.dropOpening? text = some rest) :
    Passes text rest := by
  obtain ⟨afterName, named, opened⟩ := Option.bind_eq_some_iff.mp dropped
  have name : Passes text afterName := by
    rcases Option.or_eq_some_iff.mp named with found | ⟨_, found⟩
    · exact dropWord? (by decide) found
    · exact dropWord? (by decide) found
  exact (name.trans (dropOptional (by decide) afterName)).trans (dropWord? (by decide) opened)

end Passes

/-- The closing part of a function is inert. -/
theorem inert_of_isClosing {text : List Char} (closing : isClosing text = true) : Inert text := by
  unfold isClosing at closing
  simp only at closing
  split at closing
  · cases closing
  · have channel : Passes text (text.dropWhile fun c => Text.isDigit c || c = '.') :=
      Passes.dropWhile (by decide) text
    have percent := channel.trans (Passes.dropOptional (by decide : Inert ['%']) _)
    refine (percent.trans (Passes.trimStart _)).inert ?_
    rw [of_decide_eq_true closing]
    decide

/-- A color in functional form is inert. -/
theorem inert_of_isFunction {text : List Char} (accepted : isFunction text = true) :
    Inert text := by
  unfold isFunction at accepted
  split at accepted
  · rename_i rest opened
    have start := (Passes.dropOpening? opened).trans (Passes.trimStart rest)
    have closes : ∀ leading, closesAfter leading (Text.trimStart rest) = true → Inert text := by
      intro leading closed
      unfold closesAfter at closed
      split at closed
      · rename_i last channels
        exact (start.trans (Passes.dropChannels? channels)).inert (inert_of_isClosing closed)
      · cases closed
    -- The last channel may be left out, so three or two stand before the closing one.
    rcases Bool.or_eq_true_iff.mp accepted with closed | closed
    · exact closes 3 closed
    · exact closes 2 closed
  · cases accepted

theorem inert_of_isHex {text : List Char} (accepted : isHex text = true) : Inert text := by
  unfold isHex at accepted
  split at accepted
  · rename_i digits
    obtain ⟨all, _⟩ := Bool.and_eq_true_iff.mp accepted
    have inside : Inert digits := inert_of_forall (by decide) (List.all_eq_true.mp all)
    exact (Passes.cons (by decide) digits).inert inside
  · cases accepted

theorem inert_of_isName {text : List Char} (accepted : isName text = true) : Inert text := by
  have letters : ∀ name ∈ names, Inert name.toList := by decide +kernel
  have inside := letters _ (List.contains_iff_mem.mp accepted)
  rw [String.toList_ofList] at inside
  exact inert_of_map inside (by decide)

/-- **The text of a color is inert**, in each of its forms. -/
theorem inert_of_isValid {text : List Char} (valid : isValid text = true) :
    Inert (Text.trim text) := by
  rcases Bool.or_eq_true_iff.mp valid with other | function
  · rcases Bool.or_eq_true_iff.mp other with name | hex
    · exact inert_of_isName name
    · exact inert_of_isHex hex
  · exact inert_of_isFunction function

end EditableTemplate.Color
