import EditableTemplate.Proofs.Catalogue.Conflict
import EditableTemplate.Proofs.Catalogue.Merge
import Mathlib.Data.List.Basic

/-!
# Which unknown name is reported

Of the names that a document refers to without introducing them one is reported, with the offset of
a placeholder. It is the first one among the bare references, and if there is none among them, that
of the first variable whose default refers to an unknown name. The offset is then not that of the
entry of the variable: it belongs to the placeholder that gives the default, the last one of the
variable to give any (`Document.LastGiven`). `Catalogue.collect_reports_first_unknown` says that a
document fails in this way exactly if there is such a name.
-/

namespace EditableTemplate

/-- The first of the results along a list that passes a test, with the item that it comes from. -/
theorem find?_filterMap_eq_some_iff {α β : Type} {f : α → Option β} {test : β → Bool}
    {items : List α} {result : β} :
    (items.filterMap f).find? test = some result ↔ test result = true ∧
      ∃ before item after, items = before ++ item :: after ∧ f item = some result ∧
        ∀ other ∈ before, ∀ value, f other = some value → test value = false := by
  rw [List.find?_filterMap, Option.bind_eq_some_iff]
  constructor
  · intro ⟨item, found, gives⟩
    obtain ⟨passes, before, after, parts, earlier⟩ := List.find?_eq_some_iff_append.mp found
    rw [gives] at passes
    refine ⟨passes, before, item, after, parts, gives, fun other member value same => ?_⟩
    have refused := earlier other member
    rw [same] at refused
    simpa using refused
  · intro ⟨passes, before, item, after, parts, gives, earlier⟩
    refine ⟨item, List.find?_eq_some_iff_append.mpr ⟨?_, before, after, parts, ?_⟩, gives⟩
    · rw [gives]
      exact passes
    · intro other member
      cases same : f other with
      | none => rfl
      | some value => simp [earlier other member value same]

theorem Mention.offset_of_ofPlaceholder {placeholder : Expression × Nat} {mention : Mention}
    (made : ofPlaceholder placeholder = some mention) : mention.offset = placeholder.2 := by
  obtain ⟨expression, offset⟩ := placeholder
  cases expression with
  | declaration name kind default =>
      cases made
      rfl
  | editable name kind label default =>
      cases made
      rfl
  | reference name => cases made

namespace Document

variable {document : Document} {name owner : String} {place : Nat} {default : Default}

/-- The default that a placeholder gives a variable. -/
def defaultGiven (name : String) (placeholder : Expression × Nat) : Option Default :=
  (Mention.ofPlaceholder placeholder).bind fun mention =>
    if mention.name = name then mention.default else none

/-- The placeholder at an offset gives a variable a default, and no placeholder after it does. -/
def LastGiven (document : Document) (name : String) (default : Default) (place : Nat) : Prop :=
  ∃ before expression after, document.placeholders = before ++ (expression, place) :: after ∧
    defaultGiven name (expression, place) = some default ∧
    ∀ later ∈ after, defaultGiven name later = none

/-- The name that is reported if a document refers to names that it does not introduce, with the
offset of the placeholder that refers to it: the first bare reference to such a name, or if there is
none, the last default of the first variable whose last default refers to such a name. -/
inductive FirstUnknown (document : Document) (name : String) (place : Nat) : Prop
  | bare {before after : List (Expression × Nat)}
      (parts : document.placeholders = before ++ (.reference name, place) :: after)
      (known : ∀ other offset, (.reference other, offset) ∈ before → document.Introduces other)
      (unknown : ¬document.Introduces name)
  | default {earlier later : List String} {owner : String}
      (bare : ∀ other offset, (.reference other, offset) ∈ document.placeholders →
        document.Introduces other)
      (parts : document.introduced = earlier ++ owner :: later)
      (known : ∀ other ∈ earlier, ∀ target offset,
        document.LastGiven other (.reference target) offset → document.Introduces target)
      (given : document.LastGiven owner (.reference name) place)
      (unknown : ¬document.Introduces name)

/-- The defaults that a variable is given, each with the offset of the placeholder that gives it. -/
def defaultsGiven (document : Document) (name : String) : List (Default × Nat) :=
  document.placeholders.filterMap fun placeholder =>
    (defaultGiven name placeholder).map (·, placeholder.2)

/-- The variable that the last default of a variable refers to, with the offset of that default. -/
def lastReference? (document : Document) (name : String) : Option (String × Nat) :=
  (document.defaultsGiven name).getLast?.bind fun given => given.1.target?.map (·, given.2)

/-- The last of the defaults that are given is the one given last. -/
theorem getLast?_defaultsGiven :
    (document.defaultsGiven name).getLast? = some (default, place) ↔
      document.LastGiven name default place := by
  rw [defaultsGiven, List.getLast?_filterMap, List.findSome?_eq_some_iff]
  constructor
  · intro ⟨after, ⟨expression, offset⟩, before, parts, gives, rest⟩
    obtain ⟨given, gives', pair⟩ := Option.map_eq_some_iff.mp gives
    cases pair
    refine ⟨before.reverse, expression, after.reverse, ?_, gives', fun later member => ?_⟩
    · rw [← List.reverse_reverse document.placeholders, parts]
      simp
    · exact Option.map_eq_none_iff.mp (rest later (List.mem_reverse.mp member))
  · intro ⟨before, expression, after, parts, gives, rest⟩
    refine ⟨after.reverse, (expression, place), before.reverse, ?_, ?_, fun later member => ?_⟩
    · rw [parts]
      simp
    · rw [gives]
      rfl
    · rw [rest later (List.mem_reverse.mp member)]
      rfl

/-- The last reference of a variable is its last default, where that is a reference. -/
theorem lastReference?_eq_some_iff :
    document.lastReference? owner = some (name, place) ↔
      document.LastGiven owner (.reference name) place := by
  rw [← getLast?_defaultsGiven, lastReference?, Option.bind_eq_some_iff]
  constructor
  · intro ⟨⟨default, offset⟩, last, refers⟩
    cases default with
    | literal value => cases refers
    | reference target =>
        cases refers
        exact last
  · intro last
    exact ⟨_, last, rfl⟩

/-- The name that a placeholder refers to if it is a bare reference, with the offset of it. -/
def bare? : Expression × Nat → Option (String × Nat)
  | (.reference name, place) => some (name, place)
  | _ => none

/-- The references of a document are the placeholders that only show a variable. -/
theorem references_eq_filterMap (document : Document) :
    document.references = document.placeholders.filterMap bare? := by
  refine List.filterMap_congr fun (expression, place) _ => ?_
  cases expression <;> rfl

/-- A placeholder is bare exactly where it shows a variable and says nothing of it. -/
theorem bare?_eq_some_iff {placeholder : Expression × Nat} :
    bare? placeholder = some (name, place) ↔ placeholder = (.reference name, place) := by
  obtain ⟨expression, offset⟩ := placeholder
  cases expression <;> simp [bare?]

variable (test : String → Bool)

/-- The first bare reference to a name that passes a test. -/
theorem find?_references_eq_some_iff :
    (document.references.find? fun reference => test reference.1) = some (name, place) ↔
      test name = true ∧ ∃ before after,
        document.placeholders = before ++ (.reference name, place) :: after ∧
        ∀ other offset, (.reference other, offset) ∈ before → test other = false := by
  rw [references_eq_filterMap, find?_filterMap_eq_some_iff]
  refine and_congr_right fun _ => ⟨?_, ?_⟩
  · rintro ⟨before, item, after, parts, gives, earlier⟩
    obtain rfl := bare?_eq_some_iff.mp gives
    exact ⟨before, after, parts, fun other offset member =>
      earlier _ member (other, offset) rfl⟩
  · rintro ⟨before, after, parts, earlier⟩
    refine ⟨before, _, after, parts, rfl, fun placeholder member reference gives => ?_⟩
    obtain rfl := bare?_eq_some_iff.mp gives
    exact earlier _ _ member

/-- No reference passes a test exactly where no placeholder shows a variable that passes. -/
theorem find?_references_eq_none_iff :
    (document.references.find? fun reference => test reference.1) = none ↔
      ∀ other offset, (.reference other, offset) ∈ document.placeholders → test other = false := by
  simp only [references_eq_filterMap, List.find?_eq_none, List.mem_filterMap, Prod.forall,
    bare?_eq_some_iff, Bool.not_eq_true]
  constructor
  · intro none other offset member
    exact none other offset ⟨_, member, rfl⟩
  · rintro none other offset ⟨_, member, rfl⟩
    exact none other offset member

/-- Along a list of variables the first one whose last default refers to a name that passes a
test. -/
theorem find?_lastReferences_eq_some_iff {names : List String} :
    ((names.filterMap document.lastReference?).find? fun reference => test reference.1) =
        some (name, place) ↔
      test name = true ∧ ∃ earlier owner later, names = earlier ++ owner :: later ∧
        document.LastGiven owner (.reference name) place ∧
        ∀ other ∈ earlier, ∀ target offset,
          document.LastGiven other (.reference target) offset → test target = false := by
  simp only [find?_filterMap_eq_some_iff, ← lastReference?_eq_some_iff, Prod.forall]

/-- The defaults that the mentions give are those that are given, without their places. -/
theorem given_default_eq (document : Document) (name : String) :
    Mention.given Mention.default document.mentions name =
      (document.defaultsGiven name).map Prod.fst := by
  rw [defaultsGiven, List.map_filterMap, Mention.given, mentions, List.filterMap_filterMap]
  refine List.filterMap_congr fun placeholder _ => ?_
  rw [Option.map_map]
  exact Option.map_id'.symm

/-- The places of defaults that the mentions give are those of the defaults that are given. -/
theorem given_offsetOfDefault_eq (document : Document) (name : String) :
    Mention.given Mention.offsetOfDefault document.mentions name =
      (document.defaultsGiven name).map Prod.snd := by
  rw [defaultsGiven, List.map_filterMap, Mention.given, mentions, List.filterMap_filterMap]
  refine List.filterMap_congr fun placeholder _ => ?_
  rw [defaultGiven]
  cases made : Mention.ofPlaceholder placeholder with
  | none => rfl
  | some mention =>
      rw [Option.bind_some, Option.bind_some, Option.map_map,
        ← Mention.offset_of_ofPlaceholder made]
      split <;> rfl

end Document

namespace Draft

variable {document : Document} {drafts : Bindings Draft} {name owner : String} {place : Nat}

/-- The default of a draft and its offset are those of the last placeholder to give a default. -/
theorem lastReference?_of_draft? {draft : Draft}
    (drafted : Mention.draft? document.mentions name = some draft) :
    (draft.default.bind Default.target?).map (·, draft.defaultOffset) =
      document.lastReference? name := by
  obtain ⟨first, _, rfl⟩ := Option.map_eq_some_iff.mp drafted
  rw [Document.lastReference?, Mention.default?, Document.given_default_eq,
    Document.given_offsetOfDefault_eq, List.getLast?_map, List.getLast?_map]
  cases (document.defaultsGiven name).getLast? <;> rfl

/-- The references of the drafts are the last references of the variables. -/
theorem references_eq (gathered : Gathered document drafts) :
    references drafts = drafts.names.filterMap document.lastReference? := by
  rw [references, Bindings.values, Bindings.entries_eq_filterMap, List.map_filterMap,
    List.filterMap_filterMap]
  refine List.filterMap_congr fun name member => ?_
  obtain ⟨draft, drafted⟩ := Bindings.mem_names_iff.mp member
  rw [drafted]
  rw [gathered] at drafted
  exact lastReference?_of_draft? drafted

/-- The reference that is found first is the one to be reported. -/
theorem find?_unknown_eq_some_iff (found : Gathered document drafts)
    (names : drafts.names = document.introduced) :
    ((document.references ++ references drafts).find? fun (name, _) => !drafts.contains name) =
      some (name, place) ↔ document.FirstUnknown name place := by
  have known : ∀ name, (!drafts.contains name) = false ↔ document.Introduces name := by
    intro name
    rw [Bool.not_eq_false', Bindings.contains_eq_true_iff, found.mem_names_iff]
  have unknown : ∀ name, (!drafts.contains name) = true ↔ ¬document.Introduces name := by
    intro name
    rw [← known, Bool.not_eq_false]
  let isUnknown : String → Bool := fun name => !drafts.contains name
  rw [List.find?_append, Option.or_eq_some_iff, references_eq found, names]
  rw [Document.find?_references_eq_some_iff isUnknown,
    Document.find?_references_eq_none_iff isUnknown,
    Document.find?_lastReferences_eq_some_iff isUnknown]
  simp only [isUnknown, known, unknown]
  constructor
  · rintro (⟨missing, before, after, parts, earlier⟩ |
      ⟨bare, missing, earlier, owner, later, parts, given, before⟩)
    · exact .bare parts earlier missing
    · exact .default bare parts before given missing
  · intro first
    cases first with
    | bare parts earlier missing => exact .inl ⟨missing, _, _, parts, earlier⟩
    | default bare parts before given missing =>
        exact .inr ⟨bare, missing, _, _, _, parts, given, before⟩

/-- What the check of the references finds. -/
theorem checkReferences_eq_error_iff (found : Gathered document drafts)
    (names : drafts.names = document.introduced) {failure : Failure} :
    checkReferences document drafts = .error failure ↔
      ∃ name place, failure = .undeclared name (some place) ∧ document.FirstUnknown name place := by
  unfold checkReferences
  split
  · rename_i name place first
    constructor
    · intro same
      exact ⟨name, place, (Except.error.inj same).symm,
        (find?_unknown_eq_some_iff found names).mp first⟩
    · intro ⟨other, offset, same, first'⟩
      rw [← find?_unknown_eq_some_iff found names, first] at first'
      cases first'
      rw [same]
  · rename_i none
    refine ⟨nofun, fun ⟨name, place, _, first⟩ => ?_⟩
    rw [← find?_unknown_eq_some_iff found names, none] at first
    cases first

end Draft

namespace Catalogue

variable {policy : MergePolicy} {document : Document}

/-- Nothing after the check of the references fails with an unknown name. -/
theorem collect_eq_undeclared_iff {drafts : Bindings Draft} {name : String} {offset : Option Nat}
    (gathered : Draft.gather .permissive document.mentions = .ok drafts) :
    collect .permissive document = .error (.undeclared name offset) ↔
      Draft.checkReferences document drafts = .error (.undeclared name offset) := by
  have found : Draft.Gathered document drafts := (Draft.find?_of_gather gathered).1
  cases checked : Draft.checkReferences document drafts with
  | error failure => simp only [collect, gathered, checked, bind, Except.bind, Except.error.injEq]
  | ok _ =>
      constructor
      · intro failed
        have outcome := outcome_collect document
        rw [failed] at outcome
        cases outcome with
        | dangling _ dangles =>
            rcases found.outcome_checkReferences with ⟨whole, _⟩ | ⟨_, _, _, refused⟩
            · exact (whole dangles).elim
            · cases checked.symm.trans refused
      · intro refused
        cases refused

/-- **Which unknown name is reported.** Collecting fails with an unknown name, under either policy,
exactly if the mentions can be merged and a placeholder refers to a name that no placeholder
introduces. The offset is that of a placeholder, and the name is that of the first bare reference to
an unknown name, or else of the last default of the first variable whose last default is a reference
to an unknown name. -/
theorem collect_reports_first_unknown (policy : MergePolicy) (document : Document) (name : String)
    (offset : Option Nat) :
    collect policy document = .error (.undeclared name offset) ↔
      document.Merges policy ∧ ∃ place, offset = some place ∧ document.FirstUnknown name place := by
  have other : ¬(Failure.undeclared name offset).IsConflict := nofun
  rw [collect_eq_error_iff other]
  refine and_congr_right fun merges => ?_
  obtain ⟨drafts, gathered⟩ := Draft.exists_gather_of_merges merges
  have permitted := (Draft.gather_eq_ok_iff.mp gathered).2
  have found : Draft.Gathered document drafts := (Draft.find?_of_gather gathered).1
  rw [collect_eq_undeclared_iff permitted,
    Draft.checkReferences_eq_error_iff found (Draft.names_gather gathered)]
  constructor
  · intro ⟨name', place, same, first⟩
    cases same
    exact ⟨place, rfl, first⟩
  · intro ⟨place, same, first⟩
    exact ⟨name, place, by rw [same], first⟩

/-- The mood is given its last default by the third placeholder, while its entry begins with the
first; the later unknown name stands in an earlier placeholder. -/
example :
    collect .strict ⟨"", [
      .placeholder (.editable "mood" none none none) 0 10,
      .placeholder (.editable "tone" none none (some (.reference "lost"))) 10 20,
      .placeholder (.declaration "mood" .string (some (.reference "gone"))) 20 30,
      .placeholder (.reference "tone") 30 40]⟩ = .error (.undeclared "gone" (some 20)) := by
  with_unfolding_all rfl

end Catalogue

end EditableTemplate
