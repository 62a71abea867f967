import EditableTemplate.Proofs.Rendering
import EditableTemplate.Proofs.Template.Shift

/-!
# One source after another

If a source is put before another one, each is cut as it is alone, unless two opening braces come
together where they meet (`Node.readFrom_append`). The nodes of the whole are those of the first and
then those of the second, later by the length of the first, where a literal text that ends the first
and one that starts the second become one (`Node.join`). So the whole is rendered as the two are,
one after the other, and what is malformed in the second is malformed in the whole
(`Document.parse_append`).
-/

namespace EditableTemplate

namespace Node

/-- A node before others; two literal texts become one. -/
def attach : Node → List Node → List Node
  | .text content offset, .text more _ :: rest => .text (content ++ more) offset :: rest
  | node, rest => node :: rest

/-- Nodes before others; a literal text that ends the first and one that starts the others become
one. -/
def join : List Node → List Node → List Node
  | [], second => second
  | [last], second => last.attach second
  | node :: next :: rest, second => node :: join (next :: rest) second

theorem mapM_ofSpan_ofText_append (offset : Nat) (text : List Char) (spans : List Span) :
    (Span.ofText offset text ++ spans).mapM ofSpan =
      (spans.mapM ofSpan).map (ofText offset text ++ ·) := by
  rw [List.mapM_append, mapM_ofSpan_ofText]
  cases spans.mapM ofSpan with
  | error failure => rfl
  | ok nodes => rfl

/-- Joining changes no node that others follow. -/
theorem join_append {second : List Node} (nonempty : second ≠ []) (first third : List Node) :
    join (first ++ second) third = first ++ join second third := by
  induction first with
  | nil => rfl
  | cons node rest ih =>
      obtain ⟨next, others, whole⟩ := List.exists_cons_of_ne_nil
        (List.append_ne_nil_of_right_ne_nil rest nonempty)
      rw [List.cons_append, whole, join, ← whole, ih, List.cons_append]

theorem join_placeholder (expression : Expression) (offset stop : Nat) (first second : List Node) :
    join (.placeholder expression offset stop :: first) second =
      .placeholder expression offset stop :: join first second := by
  cases first with
  | nil => rfl
  | cons node rest => rfl

/-- The nodes do not start with a literal text. -/
def Textless (nodes : List Node) : Prop :=
  ∀ content offset, nodes.head? ≠ some (.text content offset)

/-- A node is put in front of nodes that start without text. -/
theorem attach_of_textless {nodes : List Node} (textless : Textless nodes) (node : Node) :
    node.attach nodes = node :: nodes := by
  cases node with
  | placeholder expression offset stop => rfl
  | text content offset =>
      cases nodes with
      | nil => rfl
      | cons next rest =>
          cases next with
          | text more start => exact (textless more start rfl).elim
          | placeholder expression start stop => rfl

/-- Two texts that meet are joined to one. -/
theorem join_ofText {nodes : List Node} (textless : Textless nodes) (offset : Nat)
    (first second : List Char) :
    join (ofText offset first) (ofText (offset + first.length) second ++ nodes) =
      ofText offset (first ++ second) ++ nodes := by
  cases first with
  | nil => rfl
  | cons c first =>
      cases second with
      | nil =>
          rw [List.append_nil]
          exact attach_of_textless textless _
      | cons d second =>
          have whole : String.ofList (c :: first) ++ String.ofList (d :: second) =
              String.ofList (c :: first ++ d :: second) := String.ofList_append.symm
          exact congrArg (Node.text · offset :: nodes) whole

/-! ## Reading the whole source -/

/-- A text without an opening is read as itself. -/
theorem readFrom_text {text : List Char} (unpaired : Unpaired '{' text) (offset : Nat) :
    readFrom offset text = .ok (ofText offset text) := by
  rw [readFrom, Span.scanFrom_text unpaired]
  exact mapM_ofSpan_ofText offset text

/-- A text in front of an opening is read as itself, and then what follows. -/
theorem readFrom_opening {before : List Char} (text : Unpaired '{' (before ++ ['{']))
    (offset : Nat) (inside : List Char) :
    readFrom offset (before ++ '{' :: '{' :: inside) =
      (readFrom (offset + before.length) ('{' :: '{' :: inside)).map
        (ofText offset before ++ ·) := by
  rw [readFrom, readFrom, Span.scanFrom_opening text]
  cases Span.scanFrom (offset + before.length) ('{' :: '{' :: inside) with
  | error failure => rfl
  | ok spans => exact mapM_ofSpan_ofText_append offset before spans

/-- A placeholder that can be read is the first node, and what follows is read after it. -/
theorem readFrom_braced {body : List Char} {offset : Nat} {node : Node}
    (flat : Unpaired '{' body) (closed : Unpaired '}' (body ++ ['}']))
    (read : ofSpan (Span.ofBody offset body) = .ok node) (after : List Char) :
    readFrom offset ('{' :: '{' :: (body ++ '}' :: '}' :: after)) =
      (readFrom (Span.ofBody offset body).stop after).map (node :: ·) := by
  rw [readFrom, readFrom, Span.scanFrom_braced flat closed]
  cases Span.scanFrom (Span.ofBody offset body).stop after with
  | error failure => rfl
  | ok spans =>
      have parts : (Span.ofBody offset body :: spans).mapM ofSpan =
          (spans.mapM ofSpan).map (node :: ·) := by
        rw [List.mapM_cons, read]
        cases spans.mapM ofSpan with
        | error failure => rfl
        | ok nodes => rfl
      exact parts

/-- A source that starts with a placeholder does not start with a literal text. -/
theorem textless_of_readFrom {offset : Nat} {inside : List Char} {nodes : List Node}
    (read : readFrom offset ('{' :: '{' :: inside) = .ok nodes) : Textless nodes := by
  obtain ⟨spans, scanned, made⟩ := Except.bind_eq_ok.mp read
  obtain ⟨parts, exact, source⟩ := Decomposition.exists_exact_of_scanFrom scanned
  have cut := exact.scanFrom_source offset
  rw [source, scanned] at cut
  obtain rfl := Except.ok.inj cut
  cases parts with
  | text last =>
      obtain rfl : last = '{' :: '{' :: inside := source
      exact (exact ⟨[], inside, rfl⟩).elim
  | placeholder before body rest =>
      have opening := exact.breakAtPair?_source.1
      rw [source, breakAtPair?_pair] at opening
      obtain ⟨rfl, _⟩ := Prod.mk.inj (Option.some.inj opening)
      obtain ⟨node, others, first, _, rfl⟩ :=
        List.forall₂_cons_left_iff.mp (Except.mapM_eq_ok.mp made)
      intro content start leads
      obtain rfl := Option.some.inj leads
      obtain ⟨other, _⟩ := ofSpan_eq_text.mp first
      cases other

/-- A literal text is put before whatever text the source after it starts with. -/
theorem readFrom_text_append {text source : List Char} (unpaired : Unpaired '{' text)
    (apart : ¬(text.getLast? = some '{' ∧ source.head? = some '{')) (offset : Nat) :
    readFrom offset (text ++ source) =
      (readFrom (offset + text.length) source).map (join (ofText offset text)) := by
  cases opening : breakAtPair? '{' source with
  | none =>
      have flat := breakAtPair?_eq_none_iff.mp opening
      have none : Textless [] := nofun
      have joined := join_ofText none offset text source
      rw [List.append_nil, List.append_nil] at joined
      rw [readFrom_text (unpaired.append flat apart), readFrom_text flat]
      exact congrArg Except.ok joined.symm
  | some parts =>
      obtain ⟨before, inside⟩ := parts
      have flat := unpaired_of_breakAtPair? opening
      obtain rfl := eq_of_breakAtPair? opening
      have leads : (before ++ '{' :: '{' :: inside).head? = (before ++ ['{']).head? := by
        cases before <;> rfl
      rw [leads] at apart
      have opens := unpaired.append flat apart
      rw [← List.append_assoc] at opens
      rw [← List.append_assoc, readFrom_opening opens, readFrom_opening flat, List.length_append,
        Nat.add_assoc]
      cases read : readFrom (offset + (text.length + before.length)) ('{' :: '{' :: inside) with
      | error failure => rfl
      | ok nodes =>
          have joined := join_ofText (textless_of_readFrom read) offset text before
          exact congrArg Except.ok joined.symm

/-- The nodes of a source that starts with a literal text and a placeholder. -/
theorem exists_placeholder_of_mapM {before body : List Char} {rest : Decomposition} {offset : Nat}
    {nodes : List Node}
    (read : ((Decomposition.placeholder before body rest).spans offset).mapM ofSpan = .ok nodes) :
    ∃ expression others,
      ofSpan (Span.ofBody (offset + before.length) body) =
        .ok (.placeholder expression (offset + before.length)
          (Span.ofBody (offset + before.length) body).stop) ∧
      (rest.spans (Span.ofBody (offset + before.length) body).stop).mapM ofSpan = .ok others ∧
      nodes = ofText offset before ++ .placeholder expression (offset + before.length)
        (Span.ofBody (offset + before.length) body).stop :: others := by
  rw [Decomposition.mapM_spans_placeholder] at read
  obtain ⟨node, placed, more⟩ := Except.bind_eq_ok.mp read
  obtain ⟨others, onward, ⟨⟩⟩ := Except.bind_eq_ok.mp more
  obtain ⟨expression, _, rfl⟩ := Except.map_eq_ok.mp placed
  exact ⟨expression, others, placed, onward, rfl⟩

/-- **Reading a source before another one.** The induction is on the placeholders of the first. -/
theorem readFrom_append {parts : Decomposition} (exact : parts.Exact) {offset : Nat}
    {nodes : List Node} (read : (parts.spans offset).mapM ofSpan = .ok nodes) {source : List Char}
    (apart : ¬(parts.source.getLast? = some '{' ∧ source.head? = some '{')) :
    readFrom offset (parts.source ++ source) =
      (readFrom (offset + parts.source.length) source).map (join nodes) := by
  induction parts generalizing offset nodes with
  | text last =>
      obtain rfl := Except.ok.inj ((mapM_ofSpan_ofText offset last).symm.trans read)
      exact readFrom_text_append (unpaired_iff_not_within.mpr exact) apart offset
  | placeholder before body rest ih =>
      obtain ⟨opens, flat, closes, others⟩ := exact
      obtain ⟨expression, nodes, placed, made, rfl⟩ := exists_placeholder_of_mapM read
      have arranged : (Decomposition.placeholder before body rest).source ++ source =
          before ++ '{' :: '{' :: (body ++ '}' :: '}' :: (rest.source ++ source)) := by
        simp [Decomposition.source_placeholder]
      have length : offset + (Decomposition.placeholder before body rest).source.length =
          (Span.ofBody (offset + before.length) body).stop + rest.source.length := by
        rw [Decomposition.source, List.length_append, List.length_append, Span.stop_ofBody]
        omega
      have onward : ¬(rest.source.getLast? = some '{' ∧ source.head? = some '{') := by
        intro marks
        apply apart
        rw [Decomposition.source, List.getLast?_append, List.getLast?_append, marks.1]
        exact ⟨rfl, marks.2⟩
      rw [arranged, readFrom_opening (firstPairAfter_iff_unpaired.mp opens),
        readFrom_braced (unpaired_iff_not_within.mpr flat)
          (firstPairAfter_iff_unpaired.mp closes) placed, ih others made onward, length]
      cases readFrom ((Span.ofBody (offset + before.length) body).stop + rest.source.length)
          source with
      | error failure => rfl
      | ok second =>
          have joined := join_append (List.cons_ne_nil (.placeholder expression
            (offset + before.length) (Span.ofBody (offset + before.length) body).stop) nodes)
            (ofText offset before) second
          rw [join_placeholder] at joined
          exact congrArg Except.ok joined.symm

end Node

/-! ## Rendering the whole document -/

/-- Two outputs, one after the other; of two faults the first counts. -/
def joinOutputs (first second : Except RenderFault CodePoints) : Except RenderFault CodePoints := do
  let left ← first
  let right ← second
  pure (left ++ right)

/-- Outputs can be joined in any grouping. -/
theorem joinOutputs_assoc (first second third : Except RenderFault CodePoints) :
    joinOutputs (joinOutputs first second) third =
      joinOutputs first (joinOutputs second third) := by
  cases first with
  | error fault => rfl
  | ok left =>
      cases second with
      | error fault => rfl
      | ok middle =>
          cases third with
          | error fault => rfl
          | ok right => exact congrArg Except.ok (List.append_assoc left middle right)

namespace Node

variable {values : Bindings Value}

/-- The output for nodes, one after another. -/
def renderAll (values : Bindings Value) (nodes : List Node) : Except RenderFault CodePoints := do
  let parts ← nodes.mapM (render values)
  pure parts.flatten

theorem renderAll_cons (node : Node) (rest : List Node) :
    renderAll values (node :: rest) = joinOutputs (node.render values) (renderAll values rest) := by
  simp [renderAll, joinOutputs, List.mapM_cons]

/-- The output of two lists of nodes is that of the first joined with that of the second. -/
theorem renderAll_append (first second : List Node) :
    renderAll values (first ++ second) =
      joinOutputs (renderAll values first) (renderAll values second) := by
  simp [renderAll, joinOutputs, List.mapM_append]

/-- Places do not matter. -/
theorem renderAll_shift (distance : Nat) (nodes : List Node) :
    renderAll values (nodes.map (shift distance)) = renderAll values nodes := by
  induction nodes with
  | nil => rfl
  | cons node rest ih =>
      have same : (node.shift distance).render values = node.render values := by
        cases node with
        | text content offset => rfl
        | placeholder expression offset stop => rfl
      rw [List.map_cons, renderAll_cons, renderAll_cons, ih, same]

/-- It does not matter whether two literal texts are one. -/
theorem renderAll_attach (node : Node) (nodes : List Node) :
    renderAll values (node.attach nodes) = renderAll values (node :: nodes) := by
  cases node with
  | placeholder expression offset stop => rfl
  | text content offset =>
      cases nodes with
      | nil => rfl
      | cons next rest =>
          cases next with
          | placeholder expression start stop => rfl
          | text more start =>
              have whole : CodePoints.ofString (content ++ more) =
                  CodePoints.ofString content ++ CodePoints.ofString more := by
                simp [CodePoints.ofString, CodePoints.ofChars]
              rw [attach, renderAll_cons, renderAll_cons, renderAll_cons, ← joinOutputs_assoc]
              exact congrArg (fun text => joinOutputs (.ok text) (renderAll values rest)) whole

/-- Joining nodes does not change their output. -/
theorem renderAll_join (first second : List Node) :
    renderAll values (join first second) = renderAll values (first ++ second) := by
  fun_induction join first second with
  | case1 second => rfl
  | case2 last second => exact renderAll_attach last second
  | case3 node next rest second ih =>
      rw [renderAll_cons, ih, ← renderAll_cons]
      rfl

/-- Nodes whose variables have values with a text have an output. -/
theorem exists_renderAll {nodes : List Node}
    (known : ∀ expression offset stop, .placeholder expression offset stop ∈ nodes →
      ∀ name, expression.emitted? = some name →
        ∃ value, values.find? name = some value ∧ value.writable = true) :
    ∃ output, renderAll values nodes = .ok output := by
  induction nodes with
  | nil => exact ⟨[], rfl⟩
  | cons node rest ih =>
      obtain ⟨right, others⟩ := ih fun expression offset stop member =>
        known expression offset stop (List.mem_cons_of_mem _ member)
      have first : ∃ left, node.render values = .ok left := by
        cases node with
        | text content offset => exact ⟨content, rfl⟩
        | placeholder expression offset stop =>
            obtain ⟨left, rendered, _⟩ := exists_render expression offset stop
              (known expression offset stop List.mem_cons_self)
            exact ⟨left, rendered⟩
      obtain ⟨left, rendered⟩ := first
      rw [renderAll_cons, rendered, others]
      exact ⟨left ++ right, rfl⟩

end Node

namespace Document

variable {document : Document} {values : Bindings Value}

/-- A document before another one. -/
def append (first second : Document) : Document :=
  ⟨first.source ++ second.source,
    Node.join first.nodes (second.nodes.map (Node.shift first.source.length))⟩

/-- The output of joined documents is that of the first joined with that of the second. -/
theorem render_append (first second : Document) (values : Bindings Value) :
    (first.append second).render values =
      joinOutputs (first.render values) (second.render values) := by
  have joined : (first.append second).render values = Node.renderAll values
      (first.nodes ++ second.nodes.map (Node.shift first.source.length)) :=
    Node.renderAll_join _ _
  rw [joined, Node.renderAll_append, Node.renderAll_shift]
  rfl

/-- Every variable that a placeholder of the document emits has a value that can be written. -/
def Covered (document : Document) (values : Bindings Value) : Prop :=
  ∀ placeholder ∈ document.placeholders, ∀ name, placeholder.1.emitted? = some name →
    ∃ value, values.find? name = some value ∧ value.writable = true

/-- A document is rendered by values that cover it. -/
theorem Covered.exists_render (covered : document.Covered values) :
    ∃ output, document.render values = .ok output :=
  Node.exists_renderAll fun expression offset stop listed =>
    covered (expression, offset) (mem_placeholders_iff.mpr ⟨stop, listed⟩)

/-- Parsing is reading the nodes from the start. -/
theorem parse_eq_readFrom (source : String) :
    parse source = (Node.readFrom 0 source.toList).map (Document.mk source) := by
  unfold parse Node.readFrom Span.scan
  cases Span.scanFrom 0 source.toList with
  | error failure => rfl
  | ok spans => rfl

/-- A source in front of another shifts what the other is parsed to. -/
theorem parse_append_eq {first : String} (parsed : parse first = .ok document) {second : String}
    (apart : ¬(first.toList.getLast? = some '{' ∧ second.toList.head? = some '{')) :
    parse (first ++ second) =
      Failure.shiftOutcome first.length document.append (parse second) := by
  obtain ⟨spans, scanned, made⟩ := exists_spans_of_parse parsed
  obtain ⟨parts, exact, same, rfl⟩ := Span.exists_parts_of_scan scanned
  rw [parse_eq_readFrom] at parsed
  obtain ⟨nodes, _, rfl⟩ := Except.map_eq_ok.mp parsed
  rw [← same] at apart
  have read := Node.readFrom_append exact made apart
  have moved := Node.readFrom_add first.length 0 second.toList
  rw [Nat.zero_add, same, ← String.toList_append, String.length_toList] at read
  rw [Nat.add_zero] at moved
  rw [parse_eq_readFrom, parse_eq_readFrom, read, moved]
  cases Node.readFrom 0 second.toList with
  | error failure => rfl
  | ok nodes => rfl

/-- **One source before another.** Let the first be parsed, and let it not end with an opening brace
if the second starts with one. If the second is parsed as well, so is the whole: its nodes are those
of the first and then, later by the length of the first, those of the second, and it is rendered as
the two are, one after the other. What is malformed in the second is malformed in the whole, later
by the length of the first. -/
theorem parse_append {first : String} (parsed : parse first = .ok document) {second : String}
    (apart : ¬(first.toList.getLast? = some '{' ∧ second.toList.head? = some '{')) :
    (∀ other, parse second = .ok other →
      parse (first ++ second) = .ok (document.append other) ∧
      ∀ values,
        (document.append other).render values =
          joinOutputs (document.render values) (other.render values) ∧
        (document.Covered values → other.Covered values →
          ∃ left right, document.render values = .ok left ∧ other.render values = .ok right ∧
            (document.append other).render values = .ok (left ++ right))) ∧
    ∀ fault offset, parse second = .error (.malformed fault offset) →
      parse (first ++ second) = .error (.malformed fault (first.length + offset)) := by
  have whole := parse_append_eq parsed apart
  constructor
  · intro other parsed'
    rw [parsed'] at whole
    refine ⟨whole, fun values => ⟨render_append document other values, ?_⟩⟩
    intro covered covered'
    obtain ⟨left, rendered⟩ := covered.exists_render
    obtain ⟨right, rendered'⟩ := covered'.exists_render
    refine ⟨left, right, rendered, rendered', ?_⟩
    rw [render_append, rendered, rendered']
    rfl
  · intro fault offset failed
    rw [failed] at whole
    exact whole

/-- A source that ends with an opening brace. -/
def openSource : String :=
  "<\x7b\x7b $size \x7d\x7d\x7b"

def openDocument : Document :=
  ⟨openSource, [.text "<" 0, .placeholder (.reference "size") 1 12, .text "\x7b" 12]⟩

/-- A source that starts with text, so that no two opening braces come together before it. -/
def restSource : String :=
  "\x7d: \x7b\x7b $size \x7d\x7d"

def restDocument : Document :=
  ⟨restSource, [.text "\x7d: " 0, .placeholder (.reference "size") 3 14]⟩

/-- A source whose placeholder lacks a name. -/
def namelessSource : String :=
  "\x7d\x7b\x7b $ \x7d\x7d"

def sizeValues : Bindings Value :=
  .ofList [("size", .number (.integer 7))]

theorem parse_append_openSource :
    parse (openSource ++ restSource) = .ok (openDocument.append restDocument) ∧
      (openDocument.append restDocument).nodes =
        [.text "<" 0, .placeholder (.reference "size") 1 12, .text "\x7b\x7d: " 12,
          .placeholder (.reference "size") 16 27] ∧
      (∃ left right, openDocument.render sizeValues = .ok left ∧
        restDocument.render sizeValues = .ok right ∧
        (openDocument.append restDocument).render sizeValues = .ok (left ++ right)) ∧
      parse (openSource ++ namelessSource) =
        .error (.malformed .nameExpectedAfterDollar (openSource.length + 5)) := by
  have parsed : parse openSource = .ok openDocument := by with_unfolding_all rfl
  have parsed' : parse restSource = .ok restDocument := by with_unfolding_all rfl
  have failed : parse namelessSource = .error (.malformed .nameExpectedAfterDollar 5) := by
    with_unfolding_all rfl
  have size : sizeValues.find? "size" = some (.number (.integer 7)) := rfl
  have covered : ∀ {document : Document} {offset : Nat},
      document.placeholders = [(.reference "size", offset)] → document.Covered sizeValues := by
    intro document offset only placeholder listed name emitted
    rw [only] at listed
    obtain rfl := List.mem_singleton.mp listed
    cases emitted
    exact ⟨_, size, by decide⟩
  obtain ⟨whole, renders⟩ := (parse_append parsed (by decide)).1 restDocument parsed'
  exact ⟨whole, by with_unfolding_all rfl, (renders sizeValues).2 (covered rfl) (covered rfl),
    (parse_append parsed (by decide)).2 _ _ failed⟩

end Document

end EditableTemplate
