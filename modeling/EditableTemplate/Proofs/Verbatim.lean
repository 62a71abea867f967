import EditableTemplate.Proofs.CommandLine.Render
import EditableTemplate.Proofs.Substitution
import EditableTemplate.Proofs.Text.Newline
import EditableTemplate.Proofs.Text.Utf8

/-!
# The literal text of a file

Loading a template unifies the line ends of its file, and rendering keeps the literal text that is
left (`Template.keeps_literals`). So what a file comes to is its content with each placeholder
replaced exactly if no carriage return stands outside placeholders. A file without two opening
braces together is written back, its line ends unified.
-/

namespace EditableTemplate

namespace CodePoints

theorem character_mem_flatten {c : Char} {texts : List (List Char)} :
    .character c ∈ (texts.map ofChars).flatten ↔ ∃ text ∈ texts, c ∈ text := by
  simp [ofChars]

end CodePoints

namespace Decomposition

/-- A change made in every part of a source. -/
def map (change : List Char → List Char) : Decomposition → Decomposition
  | .text last => .text (change last)
  | .placeholder before body rest => .placeholder (change before) (change body) (rest.map change)

/-- A change in every part changes the literal texts. -/
theorem literals_map (change : List Char → List Char) (parts : Decomposition) :
    (parts.map change).literals = parts.literals.map change := by
  induction parts with
  | text last => rfl
  | placeholder before body rest ih => exact congrArg (change before :: ·) ih

theorem length_bodies_map (change : List Char → List Char) (parts : Decomposition) :
    (parts.map change).bodies.length = parts.bodies.length := by
  induction parts with
  | text last => rfl
  | placeholder before body rest ih => exact congrArg (· + 1) ih

/-- A text is taken apart where it is with its line ends unified. -/
theorem Exact.exists_map_unify {unified : Decomposition} (exact : unified.Exact) {text : List Char}
    (same : unified.source = Utf8.unifyNewlines text) :
    ∃ parts : Decomposition, parts.Exact ∧ parts.source = text ∧
      parts.map Utf8.unifyNewlines = unified := by
  have opening : ('{' : Char) ≠ '\r' ∧ ('{' : Char) ≠ '\n' := by decide
  have closing : ('}' : Char) ≠ '\r' ∧ ('}' : Char) ≠ '\n' := by decide
  induction unified generalizing text with
  | text last =>
      obtain rfl : last = Utf8.unifyNewlines text := same
      have absent := breakAtPair?_eq_none_iff_not_within.mpr exact
      rw [Utf8.breakAtPair?_unify opening, Option.map_eq_none_iff] at absent
      exact ⟨.text text, breakAtPair?_eq_none_iff_not_within.mp absent, rfl, rfl⟩
  | placeholder before body rest ih =>
      obtain ⟨opens, closes⟩ := exact.breakAtPair?_source
      rw [same, Utf8.breakAtPair?_unify opening] at opens
      obtain ⟨⟨left, inside⟩, opened, marks⟩ := Option.map_eq_some_iff.mp opens
      obtain ⟨rfl, onward⟩ := Prod.mk.inj marks
      rw [← onward, Utf8.breakAtPair?_unify closing] at closes
      obtain ⟨⟨content, after⟩, closed, marks⟩ := Option.map_eq_some_iff.mp closes
      obtain ⟨rfl, later⟩ := Prod.mk.inj marks
      obtain ⟨others, exactly, rfl, rfl⟩ := ih exact.2.2.2 later.symm
      have flat := breakAtPair?_eq_none_iff_not_within.mpr exact.2.1
      rw [Utf8.breakAtPair?_unify opening, Option.map_eq_none_iff] at flat
      refine ⟨.placeholder left content others, ⟨firstPairAfter_of_breakAtPair? opened,
        breakAtPair?_eq_none_iff_not_within.mp flat, firstPairAfter_of_breakAtPair? closed,
        exactly⟩, ?_, rfl⟩
      rw [source_placeholder, ← eq_of_breakAtPair? closed, ← eq_of_breakAtPair? opened]

/-- A change that leaves the literal texts as they are leaves what the source is filled to. -/
theorem fill_map {change : List Char → List Char} {parts : Decomposition}
    (fixed : ∀ literal ∈ parts.literals, change literal = literal) (emitted : List CodePoints) :
    (parts.map change).fill emitted = parts.fill emitted := by
  refine congrArg List.flatten ?_
  induction parts generalizing emitted with
  | text last => rw [map, fixed last List.mem_cons_self]
  | placeholder before body rest ih =>
      have same := fixed before List.mem_cons_self
      cases emitted with
      | nil => rw [map, weave, weave, same]
      | cons first others =>
          have later := ih (fun literal member => fixed literal (List.mem_cons_of_mem _ member))
            others
          rw [map, weave, weave, same, later]

/-- A code point is put out as often as it is in the literal texts and the texts put in. -/
theorem count_fill {parts : Decomposition} {emitted : List CodePoints}
    (count : emitted.length = parts.bodies.length) (point : CodePoint) :
    (parts.fill emitted).count point =
      (parts.literals.map CodePoints.ofChars).flatten.count point +
        emitted.flatten.count point := by
  rw [fill, (perm_weave count).flatten.count_eq, List.flatten_append, List.count_append]

/-- Unifying line ends leaves what a source is filled to exactly if no literal text of the source
holds a carriage return. -/
theorem fill_map_unify_eq_iff {parts : Decomposition} {emitted : List CodePoints}
    (count : emitted.length = parts.bodies.length) :
    (parts.map Utf8.unifyNewlines).fill emitted = parts.fill emitted ↔
      ∀ literal ∈ parts.literals, '\r' ∉ literal := by
  constructor
  · intro same literal member returned
    have counts := congrArg (List.count (.character '\r')) same
    rw [count_fill count, count_fill (count.trans (length_bodies_map _ parts).symm),
      literals_map] at counts
    have left : .character '\r' ∉
        ((parts.literals.map Utf8.unifyNewlines).map CodePoints.ofChars).flatten := by
      rw [CodePoints.character_mem_flatten]
      rintro ⟨_, listed, held⟩
      obtain ⟨other, _, rfl⟩ := List.mem_map.mp listed
      exact Utf8.not_mem_unifyNewlines other held
    have before : .character '\r' ∈ (parts.literals.map CodePoints.ofChars).flatten :=
      CodePoints.character_mem_flatten.mpr ⟨literal, member, returned⟩
    have some := List.count_pos_iff.mpr before
    rw [List.count_eq_zero.mpr left] at counts
    omega
  · intro absent
    exact fill_map (fun literal member =>
      Utf8.unifyNewlines_eq_self_iff.mpr (absent literal member)) emitted

end Decomposition

section

variable {settings : Settings} {folder : Folder} {name : String} {content : List UInt8}
  {text : List Char} {document : Document}

/-- A template is loaded from a file whose bytes decode to a text that parses with unified
newlines. -/
theorem Template.load_of_decode (policy : Policy)
    (found : folder.look (Path.ofString name) = .ok (.bytes content))
    (within : ¬settings.maxTemplateBytes < content.length)
    (decoded : Utf8.decode content = .ok text)
    (parsed : Document.parse (String.ofList (Utf8.unifyNewlines text)) = .ok document) :
    load settings policy folder name = .ok ⟨document, policy⟩ := by
  have read : Utf8.readText content = .ok (String.ofList (Utf8.unifyNewlines text)) :=
    Except.map_eq_ok.mpr ⟨text, decoded, rfl⟩
  exact load_eq_ok.mpr ⟨_, Folder.loadText_eq_ok.mpr ⟨content, found, within, read⟩, parsed, rfl⟩

/-- A file that is a literal text is rendered as that text. -/
theorem CommandLine.renders_literal
    (loaded : Template.load settings settings.policy folder name =
      .ok ⟨Document.literal text, settings.policy⟩) :
    Renders settings folder name Bindings.empty none (.ofChars text) :=
  ⟨_, _, _, _, loaded, rfl, Document.collect_literal _ _, rfl,
    Document.renderWith_literal settings.policy text⟩

/-- **The literal text of a file is kept, but for its line ends.** Let a file within the limit hold
UTF-8, and let what it holds be parsed once its line ends are unified. Then it loads, and with
values for its variables it is rendered as its content with every literal text unified and every
placeholder replaced; the literal texts are kept exactly if no carriage return stands in them. If
the content holds no two opening braces together, the command to render writes it back, its line
ends unified. -/
theorem Template.keeps_literals
    (found : folder.look (Path.ofString name) = .ok (.bytes content))
    (within : ¬settings.maxTemplateBytes < content.length)
    (decoded : Utf8.decode content = .ok text)
    (parsed : Document.parse (String.ofList (Utf8.unifyNewlines text)) = .ok document) :
    (∀ policy, load settings policy folder name = .ok ⟨document, policy⟩) ∧
    Utf8.encode (String.ofList text) = content ∧
    (∃ parts : Decomposition, parts.Exact ∧ parts.source = text ∧
      ∀ values, document.Covered values →
        ∃ emitted, List.Forall₂ (Expression.Emits values) document.expressions emitted ∧
          emitted.length = parts.bodies.length ∧
          document.render values = .ok ((parts.map Utf8.unifyNewlines).fill emitted) ∧
          ((parts.map Utf8.unifyNewlines).fill emitted = parts.fill emitted ↔
            ∀ literal ∈ parts.literals, '\r' ∉ literal)) ∧
    (¬['{', '{'] <:+: text → ∀ arguments output,
      CommandLine.Order.read folder .render arguments =
        .ok (.job (.render name Bindings.empty none output)) →
      (∀ path, output = some path → ∃ target, folder.target (Path.ofString path) = .ok target) →
      ∃ outcome, CommandLine.run settings folder ("render" :: arguments) = .ok outcome ∧
        outcome.status = 0 ∧
        CommandLine.Delivers folder (.ofChars (Utf8.unifyNewlines text)) outcome output) ∧
    (Utf8.unifyNewlines text = text ↔ '\r' ∉ text) := by
  have loads := fun policy => load_of_decode policy found within decoded parsed
  refine ⟨loads, Utf8.encode_of_decode decoded, ?_, ?_, Utf8.unifyNewlines_eq_self_iff⟩
  · obtain ⟨unified, exact, same⟩ := Document.exists_parts parsed
    have unifies := same.trans String.toList_ofList
    obtain ⟨parts, exactly, whole, rfl⟩ := exact.exists_map_unify unifies
    refine ⟨parts, exactly, whole, fun values covered => ?_⟩
    obtain ⟨emitted, emits, count, rendered⟩ := Document.exists_fill parsed exact same covered
    rw [Decomposition.length_bodies_map] at count
    exact ⟨emitted, emits, count, rendered, Decomposition.fill_map_unify_eq_iff count⟩
  · intro flat arguments output asked placed
    have unpaired : ¬['{', '{'] <:+: Utf8.unifyNewlines text := by
      rw [← breakAtPair?_eq_none_iff_not_within, Utf8.breakAtPair?_unify (by decide),
        breakAtPair?_eq_none_iff_not_within.mpr flat]
      rfl
    obtain rfl := Except.ok.inj (parsed.symm.trans (Document.parse_literal unpaired))
    have answered : CommandLine.run settings folder ("render" :: arguments) =
        CommandLine.runRender settings folder name Bindings.empty none output :=
      CommandLine.run_of_read settings asked
    rw [answered]
    exact CommandLine.exists_delivers (CommandLine.renders_literal (loads settings.policy))
      ⟨_, rfl⟩ placed

end

/-- A template whose lines end in carriage returns. -/
def letterText : String := "Hi \x7b\x7b a \x7d\x7d,\r\nbye\r"

/-- A folder with that template and a text without placeholders. -/
def letterFolder : Folder :=
  Bindings.ofList [("t", .bytes (Utf8.encode letterText)), ("p", .bytes (Utf8.encode "a\r\nb"))]

/-- The document that the template loads as. -/
def letterDocument : Document :=
  ⟨"Hi \x7b\x7b a \x7d\x7d,\nbye\n",
    [.text "Hi " 0, .placeholder (.editable "a" none none none) 3 10, .text ",\nbye\n" 10]⟩

/-- A value for its variable. -/
def letterValues : Bindings Value := Bindings.ofList [("a", .string "you")]

/-- The text without placeholders is in the folder. -/
theorem look_returnText :
    letterFolder.look (Path.ofString "p") = .ok (.bytes (Utf8.encode "a\r\nb")) := by
  with_unfolding_all rfl

/-- Its bytes decode to its characters, the carriage return among them. -/
theorem decode_returnText :
    Utf8.decode (Utf8.encode "a\r\nb") = .ok ['a', '\r', '\n', 'b'] := by
  with_unfolding_all rfl

/-- The command line asks to render it. -/
theorem read_returnText : CommandLine.Order.read letterFolder .render ["p"] =
    .ok (.job (.render "p" Bindings.empty none none)) := by
  with_unfolding_all rfl

theorem Template.keeps_literals_letter :
    letterFolder.look (Path.ofString "t") = .ok (.bytes (Utf8.encode letterText)) ∧
    load Settings.initial Settings.initial.policy letterFolder "t" =
      .ok ⟨letterDocument, Settings.initial.policy⟩ ∧
    letterDocument.Covered letterValues ∧
    (∃ parts : Decomposition, parts.Exact ∧ parts.source = letterText.toList ∧
      ∃ emitted, List.Forall₂ (Expression.Emits letterValues) letterDocument.expressions emitted ∧
        letterDocument.render letterValues =
          .ok ((parts.map Utf8.unifyNewlines).fill emitted)) ∧
    ∃ outcome, CommandLine.run Settings.initial letterFolder ["render", "p"] = .ok outcome ∧
      outcome.status = 0 ∧ CommandLine.Delivers letterFolder (.ofString "a\nb") outcome none := by
  have found : letterFolder.look (Path.ofString "t") = .ok (.bytes (Utf8.encode letterText)) := by
    with_unfolding_all rfl
  have bytes : (Utf8.encode letterText).length = 17 := by with_unfolding_all rfl
  have within : ¬Settings.initial.maxTemplateBytes < (Utf8.encode letterText).length := by
    rw [bytes]
    decide
  have decoded : Utf8.decode (Utf8.encode letterText) = .ok letterText.toList := by
    with_unfolding_all rfl
  have parsed : Document.parse (String.ofList (Utf8.unifyNewlines letterText.toList)) =
      .ok letterDocument := by with_unfolding_all rfl
  have covered : letterDocument.Covered letterValues := by
    intro placeholder member name emits
    obtain rfl := List.mem_singleton.mp member
    obtain rfl := Option.some.inj emits
    exact ⟨.string "you", rfl, rfl⟩
  obtain ⟨loads, _, ⟨parts, exact, same, fills⟩, _⟩ :=
    keeps_literals found within decoded parsed
  obtain ⟨emitted, emits, _, rendered, _⟩ := fills letterValues covered
  refine ⟨found, loads _, covered, ⟨parts, exact, same, emitted, emits, rendered⟩, ?_⟩
  have few : (Utf8.encode "a\r\nb").length = 4 := by with_unfolding_all rfl
  have short : ¬Settings.initial.maxTemplateBytes < (Utf8.encode "a\r\nb").length := by
    rw [few]
    decide
  have literal : Document.parse (String.ofList (Utf8.unifyNewlines ['a', '\r', '\n', 'b'])) =
      .ok (Document.literal ['a', '\n', 'b']) := by with_unfolding_all rfl
  have unplaced : ∀ path, none = some path →
      ∃ target, letterFolder.target (Path.ofString path) = .ok target := by
    intro path placed
    cases placed
  exact (keeps_literals look_returnText short decode_returnText literal).2.2.2.1 (by decide) ["p"]
    none read_returnText unplaced

/-- A carriage return in a literal text is lost, in the rendered text and on the command line. -/
theorem Template.loses_return :
    letterFolder.look (Path.ofString "p") = .ok (.bytes (Utf8.encode "a\r\nb")) ∧
    Utf8.decode (Utf8.encode "a\r\nb") = .ok ['a', '\r', '\n', 'b'] ∧
    ∃ template, load Settings.initial Settings.initial.policy letterFolder "p" = .ok template ∧
      template.document.placeholders = [] ∧
      template.document.render Bindings.empty = .ok (.ofString "a\nb") ∧
      ∃ outcome, CommandLine.run Settings.initial letterFolder ["render", "p"] = .ok outcome ∧
        outcome.status = 0 ∧ outcome.stdout = "a\nb" ∧ outcome.stdout ≠ "a\r\nb" := by
  have loaded : load Settings.initial Settings.initial.policy letterFolder "p" =
      .ok ⟨Document.literal ['a', '\n', 'b'], Settings.initial.policy⟩ := by
    with_unfolding_all rfl
  have rendered : (Document.literal ['a', '\n', 'b']).render Bindings.empty =
      .ok (.ofString "a\nb") := by with_unfolding_all rfl
  have ran : CommandLine.runRender Settings.initial letterFolder "p" Bindings.empty none none =
      .ok (.success letterFolder "a\nb" []) := by with_unfolding_all rfl
  refine ⟨look_returnText, decode_returnText, _, loaded, rfl, rendered, _,
    (CommandLine.run_of_read Settings.initial read_returnText).trans ran, rfl, rfl, ?_⟩
  decide

end EditableTemplate
