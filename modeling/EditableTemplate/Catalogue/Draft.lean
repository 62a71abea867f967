import EditableTemplate.Policy
import EditableTemplate.Template.Document

/-!
# Drafts of variables

Every declaration and every editable reference mentions a variable (`Mention`). All mentions of one
name make up its draft: the kind on which they agree, the first label, the last default and the
first offset (`Draft.merge`). Under the strict policy labels and defaults must agree as well.
`Draft.gather` makes the drafts of a document.
-/

namespace EditableTemplate

/-- What one placeholder says about the variable it mentions. -/
structure Mention where
  /-- The variable. -/
  name : String
  /-- Its kind. -/
  kind : Option Kind
  /-- Its label. -/
  label : Option String
  /-- Its default. -/
  default : Option Default
  /-- The offset of the placeholder. -/
  offset : Nat
  deriving DecidableEq

/-- What a placeholder says about a variable; a bare reference says nothing. -/
def Mention.ofPlaceholder : Expression × Nat → Option Mention
  | (.declaration name kind default, offset) => some ⟨name, some kind, none, default, offset⟩
  | (.editable name kind label default, offset) => some ⟨name, kind, label, default, offset⟩
  | (.reference _, _) => none

/-- The mentions of variables in a document, in order. -/
def Document.mentions (document : Document) : List Mention :=
  document.placeholders.filterMap Mention.ofPlaceholder

/-- The bare references of a document, with the offsets of their placeholders. -/
def Document.references (document : Document) : List (String × Nat) :=
  document.placeholders.filterMap fun
    | (.reference name, offset) => some (name, offset)
    | _ => none

/-- What the mentions of a variable come to so far. -/
structure Draft where
  /-- The kind, if any mention gives one. -/
  kind : Option Kind
  /-- The first label given. -/
  label : Option String
  /-- The last default given. -/
  default : Option Default
  /-- The offset of the first mention. -/
  offset : Nat
  /-- The offset of the mention that gave the default, or of the first one. -/
  defaultOffset : Nat
  deriving DecidableEq

namespace Draft

/-- The draft after a first mention. -/
def ofMention (mention : Mention) : Draft :=
  ⟨mention.kind, mention.label, mention.default, mention.offset, mention.offset⟩

/-- The kind after another mention: two kinds must be the same. -/
def mergeKind (name : String) : Option Kind → Option Kind → Except Failure (Option Kind)
  | some existing, some added =>
    if existing = added then .ok (some added) else .error (.kindConflict name existing added)
  | none, some added => .ok (some added)
  | existing, none => .ok existing

/-- The label after another mention: the first one. -/
def mergeLabel (policy : MergePolicy) (name : String) :
    Option String → Option String → Except Failure (Option String)
  | some existing, some added =>
    if existing ≠ added ∧ policy = .strict then .error (.labelConflict name existing added)
    else .ok (some existing)
  | none, some added => .ok (some added)
  | existing, none => .ok existing

/-- The default after another mention: the last one. -/
def mergeDefault (policy : MergePolicy) (name : String) :
    Option Default → Option Default → Except Failure (Option Default)
  | some existing, some added =>
    if existing.agrees added = false ∧ policy = .strict then
      .error (.defaultConflict name existing added)
    else .ok (some added)
  | none, some added => .ok (some added)
  | existing, none => .ok existing

/-- The draft after another mention. -/
def merge (policy : MergePolicy) (draft : Draft) (mention : Mention) : Except Failure Draft := do
  let kind ← mergeKind mention.name draft.kind mention.kind
  let label ← mergeLabel policy mention.name draft.label mention.label
  let default ← mergeDefault policy mention.name draft.default mention.default
  let defaultOffset := if mention.default.isSome then mention.offset else draft.defaultOffset
  pure ⟨kind, label, default, draft.offset, defaultOffset⟩

/-- The drafts after another mention. -/
def add (policy : MergePolicy) (drafts : Bindings Draft) (mention : Mention) :
    Except Failure (Bindings Draft) :=
  match drafts.find? mention.name with
  | none => .ok (drafts.put mention.name (ofMention mention))
  | some draft => (draft.merge policy mention).map (drafts.put mention.name)

/-- The drafts of mentions, in the order of the first mentions. -/
def gather (policy : MergePolicy) (mentions : List Mention) : Except Failure (Bindings Draft) :=
  mentions.foldlM (add policy) Bindings.empty

end Draft

end EditableTemplate
