import EditableTemplate.Proofs.Defaults
import EditableTemplate.Proofs.Substitution

/-!
# Rendering again

Values are put out unescaped, so the output of a template can be a template itself. It is a plain
text, one that comes to itself, exactly if no two opening braces stand together in it
(`Document.render_again`). Two do if they are in a value, or if a value that ends in one comes
before a text that starts with one (`CodePoints.holdsOpening_flatten`).
-/

namespace EditableTemplate

namespace CodePoints

/-- Two opening braces stand together in a text. -/
def HoldsOpening (text : CodePoints) : Prop :=
  ofChars ['{', '{'] <:+: text

/-- A text that ends in an opening brace comes before one that starts with one. -/
def MeetInOpening (first second : CodePoints) : Prop :=
  first.getLast? = some (.character '{') ∧ second.head? = some (.character '{')

/-- Two opening braces do not stand together if no two neighbors are opening braces. -/
theorem not_holdsOpening_iff {text : CodePoints} :
    ¬text.HoldsOpening ↔ text.IsChain fun first second =>
      ¬(first = .character '{' ∧ second = .character '{') :=
  not_within_iff_isChain

/-- Whether two opening braces stand together can be seen in the characters. -/
theorem holdsOpening_ofChars {text : List Char} :
    HoldsOpening (ofChars text) ↔ ['{', '{'] <:+: text := by
  rw [← not_iff_not, not_holdsOpening_iff, not_within_iff_isChain, ofChars, List.isChain_map]
  simp only [CodePoint.character.injEq]

/-- Two opening braces stand together in the one text, in the other, or where they meet. -/
theorem holdsOpening_append {first second : CodePoints} :
    HoldsOpening (first ++ second) ↔
      first.HoldsOpening ∨ second.HoldsOpening ∨ first.MeetInOpening second := by
  rw [← not_iff_not, not_or, not_or, not_holdsOpening_iff, not_holdsOpening_iff,
    not_holdsOpening_iff, List.isChain_append]
  refine and_congr_right' (and_congr_right' ?_)
  constructor
  · intro apart meet
    exact apart _ meet.1 _ meet.2 ⟨rfl, rfl⟩
  · rintro apart _ ended _ leads ⟨rfl, rfl⟩
    exact apart ⟨ended, leads⟩

/-- Two opening braces stand together in texts one after another exactly if they do in one of them
or if two of them, with none but empty ones between, meet in them. -/
theorem holdsOpening_flatten (texts : List CodePoints) :
    HoldsOpening texts.flatten ↔ (∃ text ∈ texts, text.HoldsOpening) ∨
      ∃ first second, [first, second] <:+: texts.filter (!·.isEmpty) ∧
        first.MeetInOpening second := by
  have inhabited : [] ∉ texts.filter (!·.isEmpty) := by simp
  rw [← List.flatten_filter_not_isEmpty, ← not_iff_not, not_or, not_holdsOpening_iff,
    List.isChain_flatten inhabited]
  refine and_congr ⟨?_, ?_⟩ ⟨?_, ?_⟩
  · rintro flat ⟨text, member, holds⟩
    cases text with
    | nil => exact not_holdsOpening_iff.mpr .nil holds
    | cons point rest =>
        have kept : point :: rest ∈ texts.filter (!·.isEmpty) := List.mem_filter.mpr ⟨member, rfl⟩
        exact not_holdsOpening_iff.mpr (flat _ kept) holds
  · intro absent text kept
    have member := (List.mem_filter.mp kept).1
    exact not_holdsOpening_iff.mp fun holds => absent ⟨text, member, holds⟩
  · rintro apart ⟨first, second, ⟨before, after, same⟩, ended, leads⟩
    rw [List.append_assoc] at same
    have pair := List.isChain_iff_forall_rel_of_append_cons_cons.mp apart same.symm
    exact pair _ ended _ leads ⟨rfl, rfl⟩
  · intro absent
    apply List.isChain_iff_forall_rel_of_append_cons_cons.mpr
    rintro first second before after same _ ended _ leads ⟨rfl, rfl⟩
    exact absent ⟨first, second, ⟨before, after, by simp [same]⟩, ended, leads⟩

end CodePoints

/-- The text before a placeholder neither holds two opening braces together nor ends in one. -/
theorem FirstPairAfter.apart {before : List Char} (opens : FirstPairAfter '{' before)
    (after : CodePoints) :
    ¬(CodePoints.ofChars before).HoldsOpening ∧
      ¬(CodePoints.ofChars before).MeetInOpening after := by
  obtain ⟨unpaired, _, apart⟩ := List.isChain_append.mp (firstPairAfter_iff_unpaired.mp opens)
  rw [CodePoints.holdsOpening_ofChars]
  refine ⟨unpaired_iff_not_within.mp unpaired, fun meet => ?_⟩
  have ended := meet.1
  rw [CodePoints.ofChars, List.getLast?_map] at ended
  obtain ⟨_, last, ⟨⟩⟩ := Option.map_eq_some_iff.mp ended
  exact apart '{' last '{' rfl ⟨rfl, rfl⟩

/-- Where no text put in holds an opening brace, no two of them come to stand together. -/
theorem Decomposition.Exact.not_holdsOpening_fill {parts : Decomposition} (exact : parts.Exact)
    {emitted : List CodePoints} (free : ∀ text ∈ emitted, .character '{' ∉ text) :
    ¬(parts.fill emitted).HoldsOpening := by
  induction parts generalizing emitted with
  | text last =>
      rw [Decomposition.fill_text, CodePoints.holdsOpening_ofChars]
      exact exact
  | placeholder before body rest ih =>
      obtain ⟨opens, _, _, others⟩ := exact
      cases emitted with
      | nil =>
          have whole : (Decomposition.placeholder before body rest).fill [] = .ofChars before :=
            List.flatten_singleton
          rw [whole]
          exact (opens.apart []).1
      | cons first later =>
          have bare := free first List.mem_cons_self
          rw [Decomposition.fill_placeholder, CodePoints.holdsOpening_append,
            CodePoints.holdsOpening_append]
          rintro (holds | (holds | holds | meet) | meet)
          · exact (opens.apart []).1 holds
          · exact bare (holds.subset List.mem_cons_self)
          · exact ih others (fun text member => free text (List.mem_cons_of_mem _ member)) holds
          · exact bare (List.mem_of_getLast? meet.1)
          · exact (opens.apart _).2 meet

namespace Decomposition

/-- No two opening braces stand together in a literal text of an exact decomposition. -/
theorem Exact.flat_of_mem_literals {parts : Decomposition} (exact : parts.Exact)
    {literal : List Char} (member : literal ∈ parts.literals) :
    ¬(CodePoints.ofChars literal).HoldsOpening := by
  induction parts with
  | text last =>
      obtain rfl := List.mem_singleton.mp member
      rw [CodePoints.holdsOpening_ofChars]
      exact exact
  | placeholder before body rest ih =>
      rcases List.mem_cons.mp member with rfl | later
      · exact (exact.1.apart []).1
      · exact ih exact.2.2.2 later

/-- Texts put in for placeholders make two opening braces stand together: one of them holds these,
or two texts of the whole meet in them. -/
def MakesOpening (parts : Decomposition) (emitted : List CodePoints) : Prop :=
  (∃ text ∈ emitted, text.HoldsOpening) ∨
    ∃ first second, [first, second] <:+: (parts.weave emitted).filter (!·.isEmpty) ∧
      first.MeetInOpening second

/-- Two opening braces stand together in a filled template where the texts put in make them. -/
theorem Exact.holdsOpening_fill_iff {parts : Decomposition} (exact : parts.Exact)
    {emitted : List CodePoints} (count : emitted.length = parts.bodies.length) :
    (parts.fill emitted).HoldsOpening ↔ parts.MakesOpening emitted := by
  refine (CodePoints.holdsOpening_flatten _).trans (or_congr_left ⟨?_, ?_⟩)
  · rintro ⟨text, woven, holds⟩
    rcases List.mem_append.mp ((perm_weave count).mem_iff.mp woven) with literal | put
    · obtain ⟨_, member, rfl⟩ := List.mem_map.mp literal
      exact (exact.flat_of_mem_literals member holds).elim
    · exact ⟨text, put, holds⟩
  · rintro ⟨text, put, holds⟩
    exact ⟨text, (perm_weave count).mem_iff.mpr (List.mem_append_right _ put), holds⟩

end Decomposition

namespace Document

variable {source : String} {document : Document} {policy : Policy} {values : Bindings Value}

/-- The values without overrides cover the document. -/
theorem covered_of_resolve_none (parsed : parse source = .ok document)
    (resolved : document.resolve policy .none = .ok values) : document.Covered values :=
  fun _ member _ => exists_value_of_emitted? parsed OverrideSource.writable_none resolved member

/-- A document without placeholders comes of a text without two opening braces together. -/
theorem flat_of_placeholders (parsed : parse source = .ok document)
    (none : document.placeholders = []) : ¬['{', '{'] <:+: source.toList := by
  obtain ⟨parts, exact, same⟩ := exists_parts parsed
  have covered : document.Covered Bindings.empty := by
    rw [Covered, none]
    exact List.forall_mem_nil _
  obtain ⟨emitted, emits, count, _⟩ := exists_fill parsed exact same covered
  rw [expressions, none] at emits
  cases emits
  cases parts with
  | text last =>
      obtain rfl : last = source.toList := same
      exact exact
  | placeholder before body rest => cases count

/-- **Rendering again.** Let a source be rendered with its defaults. If no two opening braces stand
together in the output, the output is parsed and rendered with defaults as itself, under any policy.
It is a source without placeholders exactly then. The output is the source with the defaults put in,
so that two opening braces stand together exactly if these make them do so; they do not where no
default has one. -/
theorem render_again (parsed : parse source = .ok document) {output : CodePoints}
    (rendered : document.renderWith policy .none = .ok output) :
    ∃ text, output = .ofString text ∧
      (¬output.HoldsOpening → ∃ again, parse text = .ok again ∧
        ∀ other, again.renderWith other .none = .ok output) ∧
      ((∃ again, parse text = .ok again ∧ again.placeholders = []) ↔ ¬output.HoldsOpening) ∧
      ∃ parts values emitted, Decomposition.Exact parts ∧ parts.source = source.toList ∧
        document.resolve policy .none = .ok values ∧
        List.Forall₂ (Expression.Emits values) document.expressions emitted ∧
        emitted.length = parts.bodies.length ∧ output = parts.fill emitted ∧
        (output.HoldsOpening ↔ parts.MakesOpening emitted) ∧
        ((∀ text ∈ emitted, .character '{' ∉ text) → ¬output.HoldsOpening) := by
  obtain ⟨values, resolved, comes⟩ := renderWith_eq_ok.mp rendered
  have plain : output.IsPlain := isPlain_of_render (fun name value found =>
    (spellable_of_resolve_none parsed resolved found).isPlain_rendered) comes
  obtain ⟨chars, rfl⟩ := plain
  obtain ⟨parts, exact, same⟩ := exists_parts parsed
  obtain ⟨emitted, emits, count, filled⟩ :=
    exists_fill parsed exact same (covered_of_resolve_none parsed resolved)
  have whole := Except.ok.inj (comes.symm.trans filled)
  have literal : ¬(CodePoints.ofChars chars).HoldsOpening →
      parse (String.ofList chars) = .ok (Document.literal chars) := by
    rw [CodePoints.holdsOpening_ofChars]
    exact parse_literal
  refine ⟨String.ofList chars, CodePoints.ofChars_eq_ofString chars, fun flat => ?_, ⟨?_, ?_⟩,
    parts, values, emitted, exact, same, resolved, emits, count, whole, ?_, ?_⟩
  · exact ⟨_, literal flat, fun other => renderWith_literal other chars⟩
  · rintro ⟨again, read, none⟩
    rw [CodePoints.holdsOpening_ofChars, ← String.toList_ofList (l := chars)]
    exact flat_of_placeholders read none
  · exact fun flat => ⟨_, literal flat, placeholders_literal chars⟩
  · rw [whole]
    exact exact.holdsOpening_fill_iff count
  · rw [whole]
    exact exact.not_holdsOpening_fill

/-- A source with a default that holds one opening brace. -/
def arrowSource : String := "<\x7b\x7b mark, defaultValue: \"\x7b-\" \x7d\x7d>"

/-- The document that it is. -/
def arrowDocument : Document :=
  ⟨arrowSource,
    [.text "<" 0,
      .placeholder (.editable "mark" none none (some (.literal (.string "\x7b-")))) 1 31,
      .text ">" 31]⟩

/-- The output with one opening brace is a template that renders to itself. -/
theorem render_again_arrow :
    parse arrowSource = .ok arrowDocument ∧
    arrowDocument.renderWith ⟨.permissive, .ignore⟩ .none = .ok (.ofString "<\x7b->") ∧
    ∃ again, parse "<\x7b->" = .ok again ∧
      ∀ other, again.renderWith other .none = .ok (.ofString "<\x7b->") := by
  have parsed : parse arrowSource = .ok arrowDocument := by with_unfolding_all rfl
  have rendered : arrowDocument.renderWith ⟨.permissive, .ignore⟩ .none =
      .ok (.ofString "<\x7b->") := by with_unfolding_all rfl
  obtain ⟨text, same, alike, _⟩ := render_again parsed rendered
  have flat : ¬CodePoints.HoldsOpening (.ofString "<\x7b->") := by
    rw [CodePoints.ofString, CodePoints.holdsOpening_ofChars]
    decide
  obtain rfl := String.toList_inj.mp (CodePoints.ofChars_injective same)
  exact ⟨parsed, rendered, alike flat⟩

/-- A source with a default that is put out twice, one opening brace after the other. -/
def twiceSource : String :=
  "\x7b\x7b @a: string = \"\x7b\" \x7d\x7d\x7b\x7b $a \x7d\x7d\x7b\x7b $a \x7d\x7d"

/-- The output of a template need not be one. -/
theorem twiceSource_not_again :
    ∃ document, parse twiceSource = .ok document ∧
      document.renderWith ⟨.permissive, .ignore⟩ .none = .ok (.ofString "\x7b\x7b") ∧
      parse "\x7b\x7b" = .error (.malformed .unterminatedPlaceholder 0) := by
  refine ⟨⟨twiceSource, [
    .placeholder (.declaration "a" .string (some (.literal (.string "\x7b")))) 0 22,
    .placeholder (.reference "a") 22 30, .placeholder (.reference "a") 30 38]⟩, ?_, ?_, ?_⟩
  · with_unfolding_all rfl
  · with_unfolding_all rfl
  · with_unfolding_all rfl

end Document

end EditableTemplate
