import EditableTemplate.Proofs.Template.Span
import EditableTemplate.Proofs.Text.Blank

/-!
# Taking a source apart

A source is taken apart into placeholders, each with the literal text before it, and the text after
the last one (`Decomposition`). That is done exactly if every placeholder opens at the first two
opening braces of what is left, closes at the first two closing ones after them, and holds no
opening ones. A source can be cut exactly if it can be taken apart so, there is one way at most, and
the spans are its pieces: they lie one after another from the start of the source to its end, and
each shows what stands in its place (`Span.scan_exact`).
-/

namespace EditableTemplate

/-- Of all pairs of a character in a text with a pair after it, the one after the text is the
first. -/
def FirstPairAfter (mark : Char) (text : List Char) : Prop :=
  ∀ before after, text ++ [mark, mark] = before ++ mark :: mark :: after →
    text.length ≤ before.length

/-- A pair is the first one if the text up to its first character has none. -/
theorem firstPairAfter_iff_unpaired {mark : Char} {text : List Char} :
    FirstPairAfter mark text ↔ Unpaired mark (text ++ [mark]) := by
  rw [unpaired_iff_not_within]
  constructor
  · rintro first ⟨before, after, within⟩
    have whole : text ++ [mark, mark] = before ++ mark :: mark :: (after ++ [mark]) := by
      have grown := congrArg (· ++ [mark]) within
      simpa using grown.symm
    have later := first before (after ++ [mark]) whole
    have lengths := congrArg List.length within
    simp only [List.length_append, List.length_cons, List.length_nil] at lengths
    omega
  · intro absent before after whole
    by_contra earlier
    -- a pair that starts earlier ends before the last character
    rcases List.eq_nil_or_concat after with rfl | ⟨inner, last, rfl⟩
    · have lengths := congrArg List.length whole
      simp only [List.length_append, List.length_cons, List.length_nil] at lengths
      omega
    · have regrouped :
          (text ++ [mark]) ++ [mark] = (before ++ mark :: mark :: inner) ++ [last] := by
        simpa using whole
      obtain ⟨within, _⟩ := List.append_inj' regrouped rfl
      exact absent ⟨before, inner, by simp [within]⟩

/-- A text is broken at its first pair. -/
theorem firstPairAfter_of_breakAtPair? {mark : Char} {text before after : List Char}
    (broken : breakAtPair? mark text = some (before, after)) : FirstPairAfter mark before :=
  firstPairAfter_iff_unpaired.mpr (unpaired_of_breakAtPair? broken)

/-- A text is not broken exactly where it has no pair. -/
theorem breakAtPair?_eq_none_iff_not_within {mark : Char} {text : List Char} :
    breakAtPair? mark text = none ↔ ¬[mark, mark] <:+: text :=
  breakAtPair?_eq_none_iff.trans unpaired_iff_not_within

namespace Span

/-- The part of a source that a span occupies. -/
def slice (source : List Char) (span : Span) : List Char :=
  (source.drop span.offset).take (span.stop - span.offset)

/-- Spans lie one after another from one offset to another, and none of them is empty. -/
def Tiles : Nat → List Span → Nat → Prop
  | start, [], stop => start = stop
  | start, span :: rest, stop =>
    span.offset = start ∧ start < span.stop ∧ Tiles span.stop rest stop

/-- Two spans are not both literal text. -/
def Apart (first second : Span) : Prop :=
  ¬(first.kind = .text ∧ second.kind = .text)

end Span

/-- What stands between the braces of a placeholder, together with them. -/
def braced (body : List Char) : List Char :=
  '{' :: '{' :: (body ++ ['}', '}'])

theorem length_braced (body : List Char) : (braced body).length = body.length + 4 := by
  simp [braced]

namespace Span

/-- A span shows what stands in its place: a literal text as it is, and the body of a placeholder
without the blank characters around it. What it shows stands at the offset of its content. -/
structure Shows (source : List Char) (span : Span) : Prop where
  text : span.kind = .text → span.text.toList = span.slice source ∧ span.text.toList ≠ []
  placeholder : span.kind = .placeholder →
    ∃ body, span.slice source = braced body ∧ Text.Trimmed body span.text.toList
  content : (source.drop span.contentOffset).take span.text.length = span.text.toList

/-- A span shows what stands in its place, and that is a certain piece of the source. -/
def Fits (source : List Char) (span : Span) (piece : SpanKind × List Char) : Prop :=
  span.Shows source ∧ (span.kind, span.slice source) = piece

/-- A span that starts and stops around a part of the source occupies it. -/
theorem slice_append {before middle after : List Char} {span : Span}
    (starts : span.offset = before.length) (stops : span.stop = before.length + middle.length) :
    span.slice (before ++ (middle ++ after)) = middle := by
  rw [slice, starts, stops, List.drop_left, Nat.add_sub_cancel_left, List.take_left]

theorem stop_ofBody (offset : Nat) (body : List Char) :
    (ofBody offset body).stop = offset + (braced body).length := by
  simp only [ofBody, length_braced]
  omega

/-- The content of a placeholder stands behind its opening braces and the blanks after them. -/
theorem drop_contentOffset (before body after : List Char) :
    ∃ rest, (before ++ (braced body ++ after)).drop (ofBody before.length body).contentOffset =
      Text.trim body ++ rest := by
  have opened : before ++ (braced body ++ after) =
      (before ++ ['{', '{'] ++ body.takeWhile Text.isBlank) ++
        (Text.trimStart body ++ ('}' :: '}' :: after)) := by
    have whole := Text.trimStart_append body
    conv_lhs => rw [braced, ← whole]
    simp
  have offset : (ofBody before.length body).contentOffset =
      (before ++ ['{', '{'] ++ body.takeWhile Text.isBlank).length := by
    simp only [ofBody, List.length_append, List.length_cons, List.length_nil]
  have trimmed := Text.trimEnd_append (Text.trimStart body)
  rw [opened, offset, List.drop_left, ← trimmed, List.append_assoc]
  exact ⟨_, rfl⟩

/-- The span of a body shows it. -/
theorem fits_ofBody (before body after : List Char) :
    Fits (before ++ (braced body ++ after)) (ofBody before.length body)
      (.placeholder, braced body) := by
  have cut : (ofBody before.length body).slice (before ++ (braced body ++ after)) = braced body :=
    slice_append rfl (stop_ofBody before.length body)
  have shown : (ofBody before.length body).text.toList = Text.trim body := String.toList_ofList
  refine ⟨⟨(fun other => nomatch other), ?_, ?_⟩, congrArg (Prod.mk SpanKind.placeholder) cut⟩
  · intro _
    refine ⟨body, cut, ?_⟩
    rw [shown]
    exact Text.trimmed_trim body
  · obtain ⟨rest, found⟩ := drop_contentOffset before body after
    rw [found, ← String.length_toList, shown, List.take_left]

/-- The piece that a literal text is; an empty one is none. -/
def textPiece (text : List Char) : List (SpanKind × List Char) :=
  if text = [] then [] else [(.text, text)]

theorem fits_ofText (before text after : List Char) :
    List.Forall₂ (Fits (before ++ (text ++ after))) (ofText before.length text)
      (textPiece text) := by
  by_cases empty : text = []
  · subst empty
    exact .nil
  · have some : text.isEmpty = false := List.isEmpty_eq_false_iff.mpr empty
    rw [ofText, textPiece, if_neg empty, some]
    refine .cons ⟨⟨?_, (fun other => nomatch other), ?_⟩, ?_⟩ .nil
    · intro _
      rw [slice_append rfl rfl, String.toList_ofList]
      exact ⟨rfl, empty⟩
    · rw [List.drop_left, ← String.length_toList, String.toList_ofList, List.take_left]
    · rw [slice_append rfl rfl]

theorem apart_ofText (offset : Nat) (text : List Char) :
    (ofText offset text).IsChain Apart := by
  rw [ofText]
  split
  · exact .nil
  · exact .singleton _

/-- Spans up to an offset and spans from there lie one after another. -/
theorem Tiles.append {first second : List Span} {start middle stop : Nat}
    (left : Tiles start first middle) (right : Tiles middle second stop) :
    Tiles start (first ++ second) stop := by
  induction first generalizing start with
  | nil =>
      obtain rfl : start = middle := left
      exact right
  | cons span rest ih => exact ⟨left.1, left.2.1, ih left.2.2⟩

/-- The span of a literal text covers it. -/
theorem tiles_ofText (offset : Nat) (text : List Char) :
    Tiles offset (ofText offset text) (offset + text.length) := by
  cases text with
  | nil => rfl
  | cons c rest => exact ⟨rfl, by simp, rfl⟩

/-- The slices of spans that lie one after another make up the part of the source behind their
start, if they end where the source does. -/
theorem flatten_slice {source : List Char} {start : Nat} {spans : List Span}
    (tiles : Tiles start spans source.length) :
    (spans.map (slice source)).flatten = source.drop start := by
  induction spans generalizing start with
  | nil =>
      obtain rfl : start = source.length := tiles
      simp
  | cons span rest ih =>
      obtain ⟨rfl, before, tail⟩ := tiles
      have last : (source.drop span.offset).drop (span.stop - span.offset) =
          source.drop span.stop := by
        rw [List.drop_drop, Nat.add_sub_cancel' (Nat.le_of_lt before)]
      rw [List.map_cons, List.flatten_cons, ih tail, ← last, slice, List.take_append_drop]

end Span

/-- A source taken apart: its placeholders, each with the literal text before it, and the text after
the last one. -/
inductive Decomposition
  /-- There is no placeholder. -/
  | text (last : List Char)
  /-- The first placeholder is the one with this body, and this text is before it. -/
  | placeholder (before body : List Char) (rest : Decomposition)

namespace Decomposition

/-- The source that was taken apart. -/
def source : Decomposition → List Char
  | .text last => last
  | .placeholder before body rest => before ++ (braced body ++ rest.source)

/-- Every placeholder opens at the first two opening braces of what is left, holds no two of them,
and closes at the first two closing braces. -/
def Exact : Decomposition → Prop
  | .text last => ¬['{', '{'] <:+: last
  | .placeholder before body rest =>
    FirstPairAfter '{' before ∧ ¬['{', '{'] <:+: body ∧ FirstPairAfter '}' body ∧ rest.Exact

/-- The pieces of the source, in order. -/
def pieces : Decomposition → List (SpanKind × List Char)
  | .text last => Span.textPiece last
  | .placeholder before body rest =>
    Span.textPiece before ++ (.placeholder, braced body) :: rest.pieces

/-- The spans of the source, which starts at an offset. -/
def spans (offset : Nat) : Decomposition → List Span
  | .text last => Span.ofText offset last
  | .placeholder before body rest =>
    let span := Span.ofBody (offset + before.length) body
    Span.ofText offset before ++ span :: rest.spans span.stop

/-- A source opens with the text before its first placeholder, and goes on with the body in
braces. -/
theorem source_placeholder (before body : List Char) (rest : Decomposition) :
    (placeholder before body rest).source =
      before ++ '{' :: '{' :: (body ++ '}' :: '}' :: rest.source) := by
  simp [source, braced]

/-! ## Cutting a source and taking it apart -/

/-- What was taken apart exactly is cut into its spans. -/
theorem Exact.scanFrom_source {parts : Decomposition} (exact : parts.Exact) (offset : Nat) :
    Span.scanFrom offset parts.source = .ok (parts.spans offset) := by
  induction parts generalizing offset with
  | text last => exact Span.scanFrom_text (unpaired_iff_not_within.mpr exact) offset
  | placeholder before body rest ih =>
      obtain ⟨opens, flat, closes, others⟩ := exact
      have cut := Span.scanFrom_body (firstPairAfter_iff_unpaired.mp opens)
        (unpaired_iff_not_within.mpr flat) (firstPairAfter_iff_unpaired.mp closes)
        (ih others (Span.ofBody (offset + before.length) body).stop)
      rw [source_placeholder]
      exact cut

/-- Whatever can be cut can be taken apart exactly. -/
theorem exists_exact_of_scanFrom {offset : Nat} {source : List Char} {spans : List Span}
    (scanned : Span.scanFrom offset source = .ok spans) :
    ∃ parts : Decomposition, parts.Exact ∧ parts.source = source := by
  fun_induction Span.scanFrom offset source generalizing spans with
  | case1 offset source absent =>
      exact ⟨.text source, breakAtPair?_eq_none_iff_not_within.mp absent, rfl⟩
  | case2 => cases scanned
  | case3 => cases scanned
  | case4 offset text before inside opening start body after closing flat span =>
      rename_i ih
      cases onward : Span.scanFrom span.stop after with
      | error failure =>
          rw [onward] at scanned
          cases scanned
      | ok others =>
          obtain ⟨rest, exact, rfl⟩ := ih onward
          have opens := firstPairAfter_of_breakAtPair? opening
          have closes := firstPairAfter_of_breakAtPair? closing
          have unpaired := breakAtPair?_eq_none_iff_not_within.mp flat
          refine ⟨.placeholder before body rest, ⟨opens, unpaired, closes, exact⟩, ?_⟩
          rw [eq_of_breakAtPair? opening, eq_of_breakAtPair? closing, source_placeholder]

/-- The first two opening braces of a source are those of its first placeholder, and the first two
closing braces after them as well. -/
theorem Exact.breakAtPair?_source {before body : List Char} {rest : Decomposition}
    (exact : (placeholder before body rest).Exact) :
    breakAtPair? '{' (placeholder before body rest).source =
      some (before, body ++ '}' :: '}' :: rest.source) ∧
    breakAtPair? '}' (body ++ '}' :: '}' :: rest.source) = some (body, rest.source) := by
  obtain ⟨opens, _, closes, _⟩ := exact
  rw [source_placeholder]
  exact ⟨breakAtPair?_append (firstPairAfter_iff_unpaired.mp opens) _,
    breakAtPair?_append (firstPairAfter_iff_unpaired.mp closes) _⟩

/-- A source is taken apart exactly in one way at most: the first pairs of braces are where they
are. -/
theorem Exact.eq_of_source {first second : Decomposition} (left : first.Exact)
    (right : second.Exact) (same : first.source = second.source) : first = second := by
  induction first generalizing second with
  | text last =>
      have absent : breakAtPair? '{' (text last).source = none :=
        breakAtPair?_eq_none_iff_not_within.mpr left
      cases second with
      | text other => exact congrArg text same
      | placeholder before body rest =>
          rw [same, right.breakAtPair?_source.1] at absent
          cases absent
  | placeholder before body rest ih =>
      obtain ⟨opened, closed⟩ := left.breakAtPair?_source
      cases second with
      | text other =>
          have absent : breakAtPair? '{' (text other).source = none :=
            breakAtPair?_eq_none_iff_not_within.mpr right
          rw [← same, opened] at absent
          cases absent
      | placeholder before' body' rest' =>
          obtain ⟨opened', closed'⟩ := right.breakAtPair?_source
          rw [same, opened'] at opened
          obtain ⟨rfl, inside⟩ := Prod.mk.inj (Option.some.inj opened)
          rw [inside, closed] at closed'
          obtain ⟨rfl, onward⟩ := Prod.mk.inj (Option.some.inj closed')
          rw [ih left.2.2.2 right.2.2.2 onward]

/-! ## The spans as pieces of the source -/

/-- The spans lie one after another from the start of the source to its end. -/
theorem tiles_spans (parts : Decomposition) (offset : Nat) :
    Span.Tiles offset (parts.spans offset) (offset + parts.source.length) := by
  induction parts generalizing offset with
  | text last => exact Span.tiles_ofText offset last
  | placeholder before body rest ih =>
      have stop := ih (offset + before.length + (braced body).length)
      have whole : offset + (placeholder before body rest).source.length =
          offset + before.length + (braced body).length + rest.source.length := by
        simp only [source, List.length_append]
        omega
      have ends := Span.stop_ofBody (offset + before.length) body
      rw [whole]
      refine (Span.tiles_ofText offset before).append ⟨rfl, ?_, ?_⟩
      · rw [ends, length_braced]
        omega
      · rw [ends]
        exact stop

/-- Between two literal texts stands a placeholder. -/
theorem apart_spans (parts : Decomposition) (offset : Nat) :
    (parts.spans offset).IsChain Span.Apart := by
  induction parts generalizing offset with
  | text last => exact Span.apart_ofText offset last
  | placeholder before body rest ih =>
      refine (Span.apart_ofText offset before).append ?_ ?_
      · exact (ih _).cons fun span _ both => nomatch both.1
      · rintro text _ span first ⟨_, other⟩
        obtain rfl := Option.some.inj first
        cases other

/-- The spans are the pieces of the source, and each shows what stands in its place. -/
theorem fits_spans (parts : Decomposition) (before : List Char) :
    List.Forall₂ (Span.Fits (before ++ parts.source)) (parts.spans before.length) parts.pieces := by
  induction parts generalizing before with
  | text last =>
      have fits := Span.fits_ofText before last []
      rwa [List.append_nil] at fits
  | placeholder text body rest ih =>
      have first := Span.fits_ofText before text (braced body ++ rest.source)
      have second := Span.fits_ofBody (before ++ text) body rest.source
      have third := ih (before ++ text ++ braced body)
      have stops : (Span.ofBody (before.length + text.length) body).stop =
          (before ++ text ++ braced body).length := by
        rw [Span.stop_ofBody, List.length_append, List.length_append]
      rw [← stops] at third
      rw [List.length_append] at second
      simp only [List.append_assoc] at second third
      exact List.rel_append first (.cons second third)

end Decomposition

namespace Span

/-- Where the scanner succeeds its spans are those of an exact decomposition of the source. -/
theorem exists_parts_of_scan {source : String} {spans : List Span}
    (scanned : scan source = .ok spans) :
    ∃ parts : Decomposition, parts.Exact ∧ parts.source = source.toList ∧
      spans = parts.spans 0 := by
  obtain ⟨parts, exact, same⟩ := Decomposition.exists_exact_of_scanFrom scanned
  have cut := exact.scanFrom_source 0
  rw [same] at cut
  exact ⟨parts, exact, same, Except.ok.inj (scanned.symm.trans cut)⟩

/-- Where the scanner succeeds its spans cover the source without a gap. -/
theorem tiles_of_scan {source : String} {spans : List Span} (scanned : scan source = .ok spans) :
    Tiles 0 spans source.toList.length := by
  obtain ⟨parts, _, same, rfl⟩ := exists_parts_of_scan scanned
  have tiles := parts.tiles_spans 0
  rwa [Nat.zero_add, same] at tiles

/-- Where the scanner succeeds every span shows what stands in its place. -/
theorem shows_of_scan {source : String} {spans : List Span} (scanned : scan source = .ok spans) :
    ∀ span ∈ spans, span.Shows source.toList := by
  obtain ⟨parts, _, same, rfl⟩ := exists_parts_of_scan scanned
  have fits := parts.fits_spans []
  rw [List.nil_append, same] at fits
  exact ((List.forall₂_and_left _ _).mp fits).1

/-- **Scanning is exact.** A source can be cut exactly if it can be taken apart at its first pairs
of braces, which is so in one way at most. The spans are then its pieces in order: they lie one
after another from the start to the end and make up the source, no two literal texts are next to
each other, and each span shows what stands in its place. -/
theorem scan_exact (source : String) :
    ((∃ spans, scan source = .ok spans) ↔
      ∃ parts : Decomposition, parts.Exact ∧ parts.source = source.toList) ∧
    (∀ first second : Decomposition, first.Exact → second.Exact →
      first.source = source.toList → second.source = source.toList → first = second) ∧
    ∀ spans, scan source = .ok spans →
      (∃ parts : Decomposition, parts.Exact ∧ parts.source = source.toList ∧
        spans.map (fun span => (span.kind, span.slice source.toList)) = parts.pieces) ∧
      Tiles 0 spans source.length ∧
      (spans.map (slice source.toList)).flatten = source.toList ∧
      spans.IsChain Apart ∧
      ∀ span ∈ spans, span.Shows source.toList := by
  refine ⟨⟨?_, ?_⟩, ?_, ?_⟩
  · rintro ⟨spans, scanned⟩
    obtain ⟨parts, exact, same, _⟩ := exists_parts_of_scan scanned
    exact ⟨parts, exact, same⟩
  · rintro ⟨parts, exact, same⟩
    have cut := exact.scanFrom_source 0
    rw [same] at cut
    exact ⟨_, cut⟩
  · intro first second left right same same'
    exact left.eq_of_source right (same.trans same'.symm)
  · intro spans scanned
    have tiles := tiles_of_scan scanned
    have shows := shows_of_scan scanned
    obtain ⟨parts, exact, same, rfl⟩ := exists_parts_of_scan scanned
    have fits := parts.fits_spans []
    rw [List.nil_append, same] at fits
    have matched := ((List.forall₂_and_left _ _).mp fits).2
    rw [← List.forall₂_map_left_iff, List.forall₂_eq_eq_eq] at matched
    refine ⟨⟨parts, exact, same, matched⟩, ?_, flatten_slice tiles, parts.apart_spans 0, shows⟩
    rw [← String.length_toList]
    exact tiles

end Span

end EditableTemplate
