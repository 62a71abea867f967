import EditableTemplate.Proofs.Template.Fault
import EditableTemplate.Proofs.Template.Node
import EditableTemplate.Text.Position
import Mathlib.Data.List.Infix

/-!
# Where a malformed template is reported

The scanner comes to an opening if the source before it can be taken apart exactly and no earlier
pair of opening braces is left over (`Decomposition.Leads`); it has cut that part then, and goes on
from the opening (`Decomposition.Leads.scanFrom_opening`). Whatever is malformed lies in the
placeholder of such an opening (`SyntaxFault.LiesIn`): at the opening if it is never closed, at the
first opening within it, or in the body. So an offset that is reported is one of the source
(`Document.located_of_parse_error`).

The whole source is cut before any placeholder is read. So the part before the opening can be cut,
and it is a template by itself if the source can be cut, but a placeholder whose braces are wrong is
reported ahead of an earlier one that is malformed inside (`Document.reports_braces_first`).
-/

namespace EditableTemplate

namespace Decomposition

/-- Every placeholder is exact, and an opening after the last text is the first one there. -/
def Leads : Decomposition → Prop
  | .text last => FirstPairAfter '{' last
  | .placeholder before body rest =>
    FirstPairAfter '{' before ∧ ¬['{', '{'] <:+: body ∧ FirstPairAfter '}' body ∧ rest.Leads

/-- A source ends as far behind its first placeholder as the rest of it is long. -/
theorem length_source_placeholder (offset : Nat) (before body : List Char) (rest : Decomposition) :
    offset + (placeholder before body rest).source.length =
      (Span.ofBody (offset + before.length) body).stop + rest.source.length := by
  rw [Span.stop_ofBody]
  simp only [source, List.length_append]
  omega

/-- What leads to an opening was taken apart exactly. -/
theorem Leads.exact {parts : Decomposition} (leads : parts.Leads) : parts.Exact := by
  induction parts with
  | text last =>
      have unpaired := (firstPairAfter_iff_unpaired.mp leads).left_of_append
      exact unpaired_iff_not_within.mp unpaired
  | placeholder before body rest ih =>
      obtain ⟨opens, flat, closes, others⟩ := leads
      exact ⟨opens, flat, closes, ih others⟩

/-- A source that is led to an opening is cut up to there, and the scanner goes on from there. -/
theorem Leads.scanFrom_opening {parts : Decomposition} (leads : parts.Leads) (offset : Nat)
    (inside : List Char) :
    Span.scanFrom offset (parts.source ++ '{' :: '{' :: inside) =
      (Span.scanFrom (offset + parts.source.length) ('{' :: '{' :: inside)).map
        (parts.spans offset ++ ·) := by
  induction parts generalizing offset with
  | text last => exact Span.scanFrom_opening (firstPairAfter_iff_unpaired.mp leads) offset inside
  | placeholder before body rest ih =>
      obtain ⟨opens, flat, closes, others⟩ := leads
      have onward := ih others (Span.ofBody (offset + before.length) body).stop
      have whole : (placeholder before body rest).source ++ '{' :: '{' :: inside =
          before ++ '{' :: '{' ::
            (body ++ '}' :: '}' :: (rest.source ++ '{' :: '{' :: inside)) := by
        simp [source_placeholder]
      rw [whole, Span.scanFrom_opening (firstPairAfter_iff_unpaired.mp opens),
        Span.scanFrom_braced (unpaired_iff_not_within.mpr flat)
          (firstPairAfter_iff_unpaired.mp closes), onward, length_source_placeholder]
      cases Span.scanFrom ((Span.ofBody (offset + before.length) body).stop + rest.source.length)
          ('{' :: '{' :: inside) with
      | error failure => rfl
      | ok others => simp [Except.map, spans]

end Decomposition

/-- The scanner comes to an opening at an offset of a source, behind whose braces stands a text. -/
def Span.ComesTo (source : List Char) (start : Nat) (inside : List Char) : Prop :=
  ∃ parts : Decomposition, parts.Leads ∧ parts.source.length = start ∧
    source = parts.source ++ '{' :: '{' :: inside

/-- The place of a fault in the placeholder of an opening, behind whose braces stands a text. -/
inductive SyntaxFault.LiesIn (start : Nat) (inside : List Char) : SyntaxFault → Nat → Prop
  | unterminated (unclosed : ¬['}', '}'] <:+: inside) :
      LiesIn start inside .unterminatedPlaceholder start
  | nested {outer inner after : List Char} (opens : FirstPairAfter '{' outer)
      (closes : FirstPairAfter '}' (outer ++ '{' :: '{' :: inner))
      (whole : inside = outer ++ '{' :: '{' :: inner ++ '}' :: '}' :: after) :
      LiesIn start inside .nestedPlaceholder (start + 2 + outer.length)
  | inner {body after : List Char} {fault : SyntaxFault} {offset : Nat}
      (flat : ¬['{', '{'] <:+: body) (closes : FirstPairAfter '}' body)
      (whole : inside = body ++ '}' :: '}' :: after) (ofExpression : fault.isInner = true)
      (low : start + 2 ≤ offset) (high : offset ≤ start + 2 + body.length) :
      LiesIn start inside fault offset

/-- A fault lies between the opening and the end of what stands inside. -/
theorem SyntaxFault.LiesIn.bounds {start place : Nat} {inside : List Char} {fault : SyntaxFault}
    (lies : fault.LiesIn start inside place) :
    start ≤ place ∧ place < start + 2 + inside.length := by
  cases lies with
  | unterminated unclosed => omega
  | nested opens closes whole =>
      simp only [whole, List.length_append, List.length_cons]
      omega
  | inner flat closes whole ofExpression low high =>
      simp only [whole, List.length_append, List.length_cons]
      omega

namespace Decomposition

/-- What can not be cut is led to an opening, and its braces are wrong. -/
theorem exists_leads_of_scanFrom {offset : Nat} {source : List Char} {failure : Failure}
    (failed : Span.scanFrom offset source = .error failure) :
    ∃ (parts : Decomposition) (inside : List Char) (fault : SyntaxFault) (place : Nat),
      parts.Leads ∧ source = parts.source ++ '{' :: '{' :: inside ∧
      failure = .malformed fault place ∧ fault.isInner = false ∧
      fault.LiesIn (offset + parts.source.length) inside place := by
  fun_induction Span.scanFrom offset source with
  | case1 => cases failed
  | case2 offset source before inside opening start unclosed =>
      obtain rfl := Except.error.inj failed
      have unclosed' := breakAtPair?_eq_none_iff_not_within.mp unclosed
      exact ⟨.text before, inside, _, _, firstPairAfter_of_breakAtPair? opening,
        eq_of_breakAtPair? opening, rfl, rfl, .unterminated unclosed'⟩
  | case3 offset source before inside opening start body after closing outer inner nested =>
      obtain rfl := Except.error.inj failed
      have closes := firstPairAfter_of_breakAtPair? closing
      have whole := eq_of_breakAtPair? closing
      rw [eq_of_breakAtPair? nested] at closes whole
      exact ⟨.text before, inside, _, _, firstPairAfter_of_breakAtPair? opening,
        eq_of_breakAtPair? opening, rfl, rfl,
        .nested (firstPairAfter_of_breakAtPair? nested) closes whole⟩
  | case4 offset source before inside opening start body after closing flat span ih =>
      rcases Except.bind_eq_error.mp failed with onward | ⟨_, _, ⟨⟩⟩
      obtain ⟨rest, deeper, fault, place, leads, whole, rfl, braces, lies⟩ := ih onward
      have opens := firstPairAfter_of_breakAtPair? opening
      have closes := firstPairAfter_of_breakAtPair? closing
      have flat' := breakAtPair?_eq_none_iff_not_within.mp flat
      refine ⟨.placeholder before body rest, deeper, fault, place, ⟨opens, flat', closes, leads⟩,
        ?_, rfl, braces, ?_⟩
      · rw [eq_of_breakAtPair? opening, eq_of_breakAtPair? closing, whole, source_placeholder]
        simp
      · rwa [length_source_placeholder]

/-- If a placeholder of a source that was taken apart can not be read, the source is led to the
first such, and those before it can be read. -/
theorem Exact.exists_leads_of_mapM {parts : Decomposition} (exact : parts.Exact) {offset : Nat}
    {failure : Failure} (failed : (parts.spans offset).mapM Node.ofSpan = .error failure) :
    ∃ (lead : Decomposition) (body after : List Char) (nodes : List Node),
      lead.Leads ∧ ¬['{', '{'] <:+: body ∧ FirstPairAfter '}' body ∧
      parts.source = lead.source ++ (braced body ++ after) ∧
      (lead.spans offset).mapM Node.ofSpan = .ok nodes ∧
      Node.ofSpan (Span.ofBody (offset + lead.source.length) body) = .error failure := by
  induction parts generalizing offset with
  | text last =>
      cases (Node.mapM_ofSpan_ofText offset last).symm.trans failed
  | placeholder before body rest ih =>
      obtain ⟨opens, flat, closes, others⟩ := exact
      have made := Node.mapM_ofSpan_ofText offset before
      rw [mapM_spans_placeholder] at failed
      -- Either this placeholder is the first that can not be read, or it is one of those that can.
      rcases Except.bind_eq_error.mp failed with refused | ⟨node, read, ran⟩
      · exact ⟨.text before, body, rest.source, _, opens, flat, closes, rfl, made, refused⟩
      · rcases Except.bind_eq_error.mp ran with refused | ⟨_, _, ⟨⟩⟩
        obtain ⟨lead, deeper, after, nodes, leads, flat', closes', whole, earlier, refused'⟩ :=
          ih others refused
        refine ⟨.placeholder before body lead, deeper, after,
          Node.ofText offset before ++ node :: nodes, ⟨opens, flat, closes, leads⟩, flat', closes',
          ?_, ?_, ?_⟩
        · simp only [source, whole, List.append_assoc]
        · rw [mapM_spans_placeholder, read, earlier]
          rfl
        · rwa [length_source_placeholder]

end Decomposition

/-- What is malformed in the body of a placeholder is reported in the body or at the end of it. -/
theorem Node.exists_of_ofSpan_error {before body : List Char} {failure : Failure}
    (failed : ofSpan (Span.ofBody before.length body) = .error failure) (after : List Char) :
    ∃ (fault : SyntaxFault) (place : Nat), failure = .malformed fault place ∧
      fault.isInner = true ∧ before.length + 2 ≤ place ∧
      place ≤ before.length + 2 + body.length ∧
      fault.PointsAt (before ++ (braced body ++ after)) place := by
  have content : (Span.ofBody before.length body).text.toList = Text.trim body :=
    String.toList_ofList
  have read : Expression.parse (Span.ofBody before.length body).text
      (Span.ofBody before.length body).contentOffset = .error failure :=
    Except.map_eq_error.mp failed
  obtain ⟨fault, index, rfl, inner, within, points⟩ := Expression.exists_of_parse_error read
  rw [content] at within points
  have leading := congrArg List.length (Text.trimStart_append body)
  have trailing := congrArg List.length (Text.trimEnd_append (Text.trimStart body))
  rw [List.length_append] at leading trailing
  have trimmed : (Text.trim body).length ≤ (Text.trimStart body).length :=
    Nat.le_of_add_right_le (Nat.le_of_eq trailing)
  refine ⟨fault, (Span.ofBody before.length body).contentOffset + index, rfl, inner, ?_, ?_, ?_⟩
  · simp only [Span.ofBody]
    omega
  · simp only [Span.ofBody]
    omega
  · apply points.imp
    intro c stands
    obtain ⟨rest, shown⟩ := Span.drop_contentOffset before body after
    obtain ⟨short, _⟩ := List.getElem?_eq_some_iff.mp stands
    rw [← List.getElem?_drop, shown, List.getElem?_append_left short]
    exact stands

namespace Document

variable {source : String} {failure : Failure}

/-- What a parsed source fails for, and what could be read before that. -/
theorem exists_leads_of_parse_error (failed : parse source = .error failure) :
    ∃ (parts : Decomposition) (inside : List Char) (fault : SyntaxFault) (place : Nat),
      parts.Leads ∧ source.toList = parts.source ++ '{' :: '{' :: inside ∧
      failure = .malformed fault place ∧ fault.LiesIn parts.source.length inside place ∧
      fault.PointsAt source.toList place ∧
      (fault.isInner = false ∧ Span.scan source = .error failure ∨
        fault.isInner = true ∧ (∃ spans, Span.scan source = .ok spans) ∧
          ∃ nodes, (parts.spans 0).mapM Node.ofSpan = .ok nodes) := by
  rcases Except.bind_eq_error.mp failed with scanned | ⟨spans, scanned, ran⟩
  · obtain ⟨parts, inside, fault, place, leads, whole, rfl, braces, lies⟩ :=
      Decomposition.exists_leads_of_scanFrom scanned
    rw [Nat.zero_add] at lies
    refine ⟨parts, inside, fault, place, leads, whole, rfl, lies, ?_, .inl ⟨braces, scanned⟩⟩
    cases lies with
    | unterminated => trivial
    | nested => trivial
    | inner _ _ _ ofExpression => cases braces.symm.trans ofExpression
  · rcases Except.bind_eq_error.mp ran with refused | ⟨_, _, ⟨⟩⟩
    obtain ⟨parts, exact, same, rfl⟩ := Span.exists_parts_of_scan scanned
    obtain ⟨lead, body, after, nodes, leads, flat, closes, whole, earlier, refused'⟩ :=
      exact.exists_leads_of_mapM refused
    rw [Nat.zero_add] at refused'
    obtain ⟨fault, place, rfl, inner, low, high, points⟩ :=
      Node.exists_of_ofSpan_error refused' after
    rw [← whole, same] at points
    refine ⟨lead, body ++ '}' :: '}' :: after, fault, place, leads, ?_, rfl,
      .inner flat closes rfl inner low high, points, .inr ⟨inner, ⟨_, scanned⟩, nodes, earlier⟩⟩
    rw [← same, whole]
    simp [braced]

/-- **Faults are located.** What is malformed in a template lies in a placeholder to whose opening
the scanner comes, and it is reported at an offset of the source, so that no offset has to be
brought into range. A character or a quote that is reported stands there. -/
theorem located_of_parse_error (failed : parse source = .error failure) :
    ∃ (start : Nat) (inside : List Char) (fault : SyntaxFault) (place : Nat),
      failure = .malformed fault place ∧ Span.ComesTo source.toList start inside ∧
      fault.LiesIn start inside place ∧ start ≤ place ∧ place < source.length ∧
      fault.PointsAt source.toList place ∧ Position.clamp source.length place = place := by
  obtain ⟨parts, inside, fault, place, leads, whole, same, lies, points, _⟩ :=
    exists_leads_of_parse_error failed
  obtain ⟨low, high⟩ := lies.bounds
  have within : place < source.length := by
    rw [← String.length_toList, whole, List.length_append, List.length_cons, List.length_cons]
    omega
  refine ⟨parts.source.length, inside, fault, place, same, ⟨parts, leads, rfl, whole⟩, lies, low,
    within, points, ?_⟩
  rw [Position.clamp, Int.toNat_natCast]
  exact Nat.min_eq_left (Nat.le_of_lt within)

/-- A source whose second placeholder holds a character that starts no lexeme. -/
def strayedSource : String :=
  "<\x7b\x7b a \x7d\x7d \x7b\x7b ! \x7d\x7d>"

theorem located_strayedSource :
    parse strayedSource = .error (.malformed (.unexpectedCharacter '!') 12) ∧
      ∃ (start : Nat) (inside : List Char) (fault : SyntaxFault) (place : Nat),
        .malformed (.unexpectedCharacter '!') 12 = Failure.malformed fault place ∧
        Span.ComesTo strayedSource.toList start inside ∧ fault.LiesIn start inside place ∧
        start ≤ place ∧ place < strayedSource.length ∧
        fault.PointsAt strayedSource.toList place ∧
        Position.clamp strayedSource.length place = place := by
  have failed : parse strayedSource = .error (.malformed (.unexpectedCharacter '!') 12) := by
    with_unfolding_all rfl
  exact ⟨failed, located_of_parse_error failed⟩

/-- **Braces first.** A template fails for the first placeholder whose braces are wrong, or for the
first that is malformed inside if no braces are wrong. What stands before that placeholder can be
cut, and in the second case it is a template by itself. -/
theorem reports_braces_first (failed : parse source = .error failure) :
    ∃ (start : Nat) (inside : List Char) (fault : SyntaxFault) (place : Nat),
      failure = .malformed fault place ∧ Span.ComesTo source.toList start inside ∧
      fault.LiesIn start inside place ∧
      (fault.isInner = false ↔ ∃ refusal, Span.scan source = .error refusal) ∧
      (∃ spans, Span.scan (String.ofList (source.toList.take start)) = .ok spans) ∧
      (fault.isInner = true →
        ∃ document, parse (String.ofList (source.toList.take start)) = .ok document) := by
  obtain ⟨parts, inside, fault, place, leads, whole, same, lies, _, phases⟩ :=
    exists_leads_of_parse_error failed
  have prefix' : source.toList.take parts.source.length = parts.source := by
    rw [whole, List.take_left]
  have cut : Span.scan (String.ofList parts.source) = .ok (parts.spans 0) := by
    rw [Span.scan, String.toList_ofList]
    exact leads.exact.scanFrom_source 0
  refine ⟨parts.source.length, inside, fault, place, same, ⟨parts, leads, rfl, whole⟩, lies, ?_, ?_,
    ?_⟩
  · rcases phases with ⟨braces, scanned⟩ | ⟨inner, ⟨spans, scanned⟩, _⟩
    · exact ⟨fun _ => ⟨_, scanned⟩, fun _ => braces⟩
    · simp [inner, scanned]
  · rw [prefix']
    exact ⟨_, cut⟩
  · rw [prefix']
    intro inner
    rcases phases with ⟨braces, _⟩ | ⟨_, _, nodes, read⟩
    · cases inner.symm.trans braces
    · refine ⟨⟨String.ofList parts.source, nodes⟩, ?_⟩
      rw [parse, cut]
      simp only [bind, Except.bind, read]
      rfl

/-- A source whose first placeholder is malformed inside and whose second is never closed. -/
def overtakenSource : String :=
  "\x7b\x7b ! \x7d\x7d\x7b\x7b"

/-- The opening that is never closed is reported, and not the fault before it. -/
theorem parse_overtakenSource :
    parse overtakenSource = .error (.malformed .unterminatedPlaceholder 7) := by
    with_unfolding_all rfl

theorem reports_overtakenSource :
    parse overtakenSource = .error (.malformed .unterminatedPlaceholder 7) ∧
      ∃ (start : Nat) (inside : List Char) (fault : SyntaxFault) (place : Nat),
        .malformed .unterminatedPlaceholder 7 = Failure.malformed fault place ∧
        Span.ComesTo overtakenSource.toList start inside ∧ fault.LiesIn start inside place ∧
        (fault.isInner = false ↔ ∃ refusal, Span.scan overtakenSource = .error refusal) ∧
        (∃ spans,
          Span.scan (String.ofList (overtakenSource.toList.take start)) = .ok spans) ∧
        (fault.isInner = true → ∃ document,
          parse (String.ofList (overtakenSource.toList.take start)) = .ok document) :=
  ⟨parse_overtakenSource, reports_braces_first parse_overtakenSource⟩

/-- The second placeholder is reported, although the first one is malformed already. -/
theorem overtakes_overtakenSource :
    parse overtakenSource = .error (.malformed .unterminatedPlaceholder 7) ∧
      Span.ComesTo overtakenSource.toList 7 [] ∧
      SyntaxFault.unterminatedPlaceholder.LiesIn 7 [] 7 ∧
      parse (String.ofList (overtakenSource.toList.take 7)) =
        .error (.malformed (.unexpectedCharacter '!') 3) := by
  have opens : FirstPairAfter '{' [] := fun _ _ _ => Nat.zero_le _
  have closes : FirstPairAfter '}' [' ', '!', ' '] :=
    firstPairAfter_iff_unpaired.mpr (by unfold Unpaired; decide)
  have comes : Span.ComesTo overtakenSource.toList 7 [] :=
    ⟨.placeholder [] [' ', '!', ' '] (.text []), ⟨opens, by decide, closes, opens⟩, rfl, rfl⟩
  exact ⟨parse_overtakenSource, comes, .unterminated (by decide), by with_unfolding_all rfl⟩

end Document

end EditableTemplate
