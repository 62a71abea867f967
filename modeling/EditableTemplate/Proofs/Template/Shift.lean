import EditableTemplate.Proofs.Template.Span
import EditableTemplate.Proofs.Template.Token
import EditableTemplate.Template.Document

/-!
# Sources that start later

Reading a template does not depend on where its source starts, but for the places that it tells: if
the same text starts later by a distance, the same tokens, spans and nodes are found that much later
(`TokenRow.readFrom_add`, `Span.scanFrom_add`, `Node.readFrom_add`), and what is malformed is
reported that much later and in the same words.
-/

namespace EditableTemplate

namespace Failure

variable {α β γ δ : Type} {distance : Nat}

/-- The failure at a place that is later by a distance, if it has a place. -/
def shift (distance : Nat) : Failure → Failure
  | .malformed fault offset => .malformed fault (distance + offset)
  | .undeclared name offset => .undeclared name (offset.map (distance + ·))
  | failure => failure

/-- An outcome that is moved: its result by a function, or its failure by a distance. -/
def shiftOutcome (distance : Nat) (move : α → β) : Except Failure α → Except Failure β
  | .ok result => .ok (move result)
  | .error failure => .error (failure.shift distance)

/-- Work that starts from a moved result has a moved outcome, if each of its steps has. -/
theorem shiftOutcome_bind {first : α → β} {second : γ → δ} {outcome : Except Failure α}
    {next : α → Except Failure γ} {next' : β → Except Failure δ}
    (moves : ∀ result, next' (first result) = shiftOutcome distance second (next result)) :
    shiftOutcome distance first outcome >>= next' =
      shiftOutcome distance second (outcome >>= next) := by
  cases outcome with
  | error failure => rfl
  | ok result => exact moves result

end Failure

open Failure (shiftOutcome shiftOutcome_bind)

/-! ## Tokens and expressions -/

def Token.shift (distance : Nat) (token : Token) : Token :=
  { token with position := distance + token.position }

namespace TokenRow

def shift (distance : Nat) (row : TokenRow) : TokenRow :=
  ⟨row.tokens.map (Token.shift distance), distance + row.stop⟩

theorem lexemes_shift (distance : Nat) (row : TokenRow) :
    (row.shift distance).lexemes = row.lexemes := by
  rw [lexemes, shift, List.map_map]
  rfl

/-- A row that is moved has its positions moved. -/
theorem positionFromEnd_shift (distance : Nat) (row : TokenRow) (remaining : Nat) :
    (row.shift distance).positionFromEnd remaining = distance + row.positionFromEnd remaining := by
  simp only [positionFromEnd, shift, List.length_map, List.getElem?_map]
  cases row.tokens[row.tokens.length - remaining]? with
  | none => rfl
  | some token => rfl

/-- The tokens of a text that starts later are moved. -/
theorem readFrom_add (distance : Nat) (position : Int) (text : List Char) :
    readFrom (distance + position) text =
      shiftOutcome distance (shift distance) (readFrom position text) := by
  fun_induction readFrom position text with
  | case1 position =>
      rw [readFrom]
      rfl
  | case2 position c rest blank ih => rw [readFrom_cons, if_pos blank, Int.add_assoc, ih]
  | case3 position c rest visible fault failed =>
      rw [readFrom_cons, if_neg visible, failed]
      rfl
  | case4 position c rest visible reading found ih =>
      rw [readFrom_cons, if_neg visible, found]
      simp only [Int.add_assoc, ih]
      exact shiftOutcome_bind fun row => rfl

end TokenRow

/-- A content that starts later is parsed alike, with its fault moved. -/
theorem Expression.parse_add (distance : Nat) (content : String) (position : Int) :
    parse content (distance + position) =
      shiftOutcome distance id (parse content position) := by
  unfold parse TokenRow.tokenize
  rw [TokenRow.readFrom_add]
  apply shiftOutcome_bind
  intro row
  have count : (row.shift distance).tokens.isEmpty = row.tokens.isEmpty := by
    rw [TokenRow.shift, List.isEmpty_map]
  rw [count, TokenRow.lexemes_shift]
  cases row.tokens.isEmpty with
  | true => rfl
  | false =>
      cases ofLexemes row.lexemes with
      | ok expression => rfl
      | error fault =>
          have place := TokenRow.positionFromEnd_shift distance row fault.remaining
          simp only [place]
          rfl

/-! ## Spans and nodes -/

namespace Span

def shift (distance : Nat) (span : Span) : Span :=
  { span with
    offset := distance + span.offset
    stop := distance + span.stop
    contentOffset := distance + span.contentOffset }

theorem ofText_add (distance offset : Nat) (text : List Char) :
    ofText (distance + offset) text = (ofText offset text).map (shift distance) := by
  unfold ofText
  split
  · rfl
  · rw [List.map_singleton, shift, Nat.add_assoc]

/-- The span of a body that starts later is moved. -/
theorem ofBody_add (distance offset : Nat) (body : List Char) :
    ofBody (distance + offset) body = (ofBody offset body).shift distance := by
  simp only [ofBody, shift, Nat.add_assoc]

/-- The spans of a source that starts later are moved, and so is its fault. -/
theorem scanFrom_add (distance offset : Nat) (source : List Char) :
    scanFrom (distance + offset) source =
      shiftOutcome distance (List.map (shift distance)) (scanFrom offset source) := by
  fun_induction scanFrom offset source with
  | case1 offset source absent =>
      rw [scanFrom_eq, absent]
      exact congrArg Except.ok (ofText_add distance offset source)
  | case2 offset source before inside opening start unclosed =>
      have place : distance + offset + before.length = distance + start := Nat.add_assoc ..
      rw [scanFrom_eq, opening]
      simp only [unclosed, place]
      rfl
  | case3 offset source before inside opening start body after closing outer inner nested =>
      have place : distance + offset + before.length = distance + start := Nat.add_assoc ..
      rw [scanFrom_eq, opening]
      simp only [closing, nested, place, Nat.add_assoc distance]
      rfl
  | case4 offset source before inside opening start body after closing flat span ih =>
      have place : distance + offset + before.length = distance + start := Nat.add_assoc ..
      have stop : (span.shift distance).stop = distance + span.stop := rfl
      rw [scanFrom_eq, opening]
      simp only [closing, flat, place, ofBody_add, ofText_add]
      rw [stop, ih]
      cases scanFrom span.stop after with
      | error failure => rfl
      | ok spans =>
          have moved : (ofText offset before ++ span :: spans).map (shift distance) =
              (ofText offset before).map (shift distance) ++
                span.shift distance :: spans.map (shift distance) := List.map_append
          exact congrArg Except.ok moved.symm

end Span

namespace Node

def shift (distance : Nat) : Node → Node
  | .text content offset => .text content (distance + offset)
  | .placeholder expression offset stop =>
    .placeholder expression (distance + offset) (distance + stop)

/-- A span that is moved is read as the moved node, or with the moved fault. -/
theorem ofSpan_shift (distance : Nat) (span : Span) :
    ofSpan (span.shift distance) = shiftOutcome distance (shift distance) (ofSpan span) := by
  unfold ofSpan
  have kinds : (span.shift distance).kind = span.kind := rfl
  rw [kinds]
  cases span.kind with
  | text => rfl
  | placeholder =>
      have moved := Expression.parse_add distance span.text span.contentOffset
      simp only [Span.shift, Int.natCast_add, moved]
      cases Expression.parse span.text span.contentOffset with
      | error failure => rfl
      | ok expression => rfl

theorem mapM_ofSpan_shift (distance : Nat) (spans : List Span) :
    (spans.map (Span.shift distance)).mapM ofSpan =
      shiftOutcome distance (List.map (shift distance)) (spans.mapM ofSpan) := by
  induction spans with
  | nil => rfl
  | cons span rest ih =>
      rw [List.map_cons, List.mapM_cons, List.mapM_cons, ofSpan_shift, ih]
      apply shiftOutcome_bind
      intro node
      apply shiftOutcome_bind
      intro nodes
      rfl

/-- The nodes of a source that starts at an offset. -/
def readFrom (offset : Nat) (source : List Char) : Except Failure (List Node) := do
  let spans ← Span.scanFrom offset source
  spans.mapM ofSpan

/-- The nodes of a source that starts later are moved, and so is its fault. -/
theorem readFrom_add (distance offset : Nat) (source : List Char) :
    readFrom (distance + offset) source =
      shiftOutcome distance (List.map (shift distance)) (readFrom offset source) := by
  rw [readFrom, Span.scanFrom_add]
  exact shiftOutcome_bind (mapM_ofSpan_shift distance)

end Node

end EditableTemplate
