import EditableTemplate.Proofs.Catalogue.Merge

/-!
# Names that are referred to

Collecting sees that what a document refers to is introduced. It looks at the bare references and at
one default of each variable, the last one given, so a default that a later mention replaces is not
looked at, and whatever stands in its place makes no difference
(`Catalogue.collect_eq_of_replaced`). Under the strict policy all defaults of a variable mean the
same, so there nothing escapes. `Catalogue.collect_checks_last_defaults` puts this together.
-/

namespace EditableTemplate

namespace Mention

variable {α : Type} {field : Mention → Option α} {before after : List Mention}
  {mention changed : Mention} {name : String}

/-- A later mention of the same variable gives it a default. -/
def Replaced (mention : Mention) (later : List Mention) : Prop :=
  ∃ other ∈ later, other.name = mention.name ∧ ∃ default, other.default = some default

theorem given_append (field : Mention → Option α) (before after : List Mention) (name : String) :
    given field (before ++ after) name = given field before name ++ given field after name :=
  List.filterMap_append

theorem given_cons_other (field : Mention → Option α) (after : List Mention)
    (other : mention.name ≠ name) :
    given field (mention :: after) name = given field after name := by
  simp [given, other]

/-- Where mentions differ in one of them, they give the same if that one gives the same. -/
theorem given_eq_of_changed (named : changed.name = mention.name)
    (same : field changed = field mention) :
    given field (before ++ changed :: after) name =
      given field (before ++ mention :: after) name := by
  rw [given_append, given_append]
  congr 1
  simp [given, List.filterMap_cons, named, same]

/-- What is given last does not depend on a mention after which more is given. -/
theorem getLast?_given_of_later (named : changed.name = mention.name)
    (later : given field after mention.name ≠ []) :
    (given field (before ++ changed :: after) name).getLast? =
      (given field (before ++ mention :: after) name).getLast? := by
  by_cases same : mention.name = name
  · subst same
    have last : ∀ one : Mention, (given field (before ++ one :: after) mention.name).getLast? =
        (given field after mention.name).getLast? := by
      intro one
      rw [given_append, ← List.singleton_append, given_append, ← List.append_assoc,
        List.getLast?_append_of_ne_nil _ later]
    rw [last, last]
  · have other : changed.name ≠ name := fun equal => same (named.symm.trans equal)
    rw [given_append, given_append, given_cons_other field after same,
      given_cons_other field after other]

/-- What every mention with a default gives is given again after a mention that is replaced. -/
theorem Replaced.given_ne_nil (field : Mention → Option α) (replaced : mention.Replaced after)
    (present : ∀ other default, other.default = some default → ∃ value, field other = some value) :
    given field after mention.name ≠ [] := by
  obtain ⟨other, member, named, default, gives⟩ := replaced
  obtain ⟨value, given⟩ := present other default gives
  exact List.ne_nil_of_mem (mem_given_iff.mpr ⟨other, member, named, given⟩)

/-- Of the first mention a draft keeps the offset only. -/
theorem draft?_eq_map_offset (mentions : List Mention) (name : String) :
    draft? mentions name =
      ((mentions.find? fun mention => mention.name = name).map offset).map fun place =>
        { kind := (Mention.kinds mentions name).head?
          label := (given label mentions name).head?
          default := default? mentions name
          offset := place
          defaultOffset := (given offsetOfDefault mentions name).getLast?.getD place } := by
  rw [draft?, Option.map_map]
  rfl

/-- A mention that changes neither name nor place leaves the first place of every name. -/
theorem map_offset_find?_of_changed (before after : List Mention) (name : String)
    (named : changed.name = mention.name) (placed : changed.offset = mention.offset) :
    ((before ++ changed :: after).find? fun one => one.name = name).map offset =
      ((before ++ mention :: after).find? fun one => one.name = name).map offset := by
  rw [List.find?_append, List.find?_append]
  cases before.find? fun one => one.name = name with
  | some first => rfl
  | none =>
      by_cases same : mention.name = name
      · simp [named, same, placed]
      · simp [named, same]

/-- The default of a mention that is replaced does not matter to the draft of any variable. -/
theorem draft?_eq_of_replaced (before : List Mention) (replaced : mention.Replaced after)
    (named : changed.name = mention.name) (kinds : changed.kind = mention.kind)
    (labels : changed.label = mention.label) (placed : changed.offset = mention.offset)
    (name : String) :
    draft? (before ++ changed :: after) name = draft? (before ++ mention :: after) name := by
  have given := replaced.given_ne_nil Mention.default fun _ value gives => ⟨value, gives⟩
  have offset := replaced.given_ne_nil offsetOfDefault fun other _ gives =>
    ⟨other.offset, by rw [offsetOfDefault, gives]; rfl⟩
  simp only [draft?_eq_map_offset, map_offset_find?_of_changed before after name named placed,
    Mention.kinds, default?, given_eq_of_changed named kinds, given_eq_of_changed named labels,
    getLast?_given_of_later named given, getLast?_given_of_later named offset]

end Mention

namespace Draft

variable {mentions mentions' : List Mention} {drafts : Bindings Draft}

/-- Mentions of the same variables in the same order with the same drafts gather alike. -/
theorem gather_eq_ok_of_same (names : mentions'.map Mention.name = mentions.map Mention.name)
    (kinds : ∀ name, Mention.kinds mentions' name = Mention.kinds mentions name)
    (same : ∀ name, Mention.draft? mentions' name = Mention.draft? mentions name)
    (gathered : gather .permissive mentions = .ok drafts) :
    gather .permissive mentions' = .ok drafts := by
  obtain ⟨found, agree⟩ := find?_of_gather gathered
  cases gathered' : gather .permissive mentions' with
  | error failure =>
      have differ := (kindsDiffer_of_gather_error gathered').1
      rw [Mention.not_kindsDiffer_iff] at agree
      refine (Mention.not_kindsDiffer_iff.mpr ?_ differ).elim
      intro name kind member
      rw [kinds] at member ⊢
      exact agree name kind member
  | ok drafts' =>
      have order : drafts'.names = drafts.names := by
        rw [names_gather gathered', names_gather gathered, names]
      have equal : drafts' = drafts := by
        apply Bindings.eq_of_find?_eq order
        intro name
        rw [(find?_of_gather gathered').1, found, same]
      rw [equal]

end Draft

namespace Document

variable {document : Document} {name : String}

/-- A name is referred to: by a bare reference, or by a default that any placeholder gives. -/
def Cites (document : Document) (name : String) : Prop :=
  (∃ offset, (name, offset) ∈ document.references) ∨
    ∃ mention ∈ document.mentions, mention.default = some (.reference name)

end Document

namespace Catalogue

variable {document : Document} {catalogue : Catalogue}

/-- A default is the last one of its variable unless a later mention replaces it. -/
theorem refersTo_of_not_replaced {before after : List Mention} {mention : Mention}
    {target : String} (parts : document.mentions = before ++ mention :: after)
    (refers : mention.default = some (.reference target)) (last : ¬mention.Replaced after) :
    document.RefersTo mention.name target := by
  have nothing : Mention.given Mention.default after mention.name = [] := by
    apply List.eq_nil_iff_forall_not_mem.mpr
    intro default member
    obtain ⟨other, listed, named, gives⟩ := Mention.mem_given_iff.mp member
    exact last ⟨other, listed, named, default, gives⟩
  have whole : Mention.given Mention.default document.mentions mention.name =
      Mention.given Mention.default before mention.name ++ [.reference target] := by
    rw [parts, List.append_cons, Mention.given_append, nothing, List.append_nil,
      Mention.given_concat_self, refers]
    rfl
  rw [Document.RefersTo, Document.default?, Mention.default?, whole]
  exact List.getLast?_concat

/-- Where the defaults of a variable mean the same, all of them refer to what the last one does. -/
theorem refersTo_of_agree (agree : document.DefaultsAgree) {mention : Mention} {target : String}
    (member : mention ∈ document.mentions) (refers : mention.default = some (.reference target)) :
    document.RefersTo mention.name target := by
  have listed : Default.reference target ∈
      Mention.given Mention.default document.mentions mention.name :=
    Mention.mem_given_iff.mpr ⟨mention, member, rfl, refers⟩
  have last := List.getLast?_eq_some_getLast (List.ne_nil_of_mem listed)
  have same := agree mention.name _ (List.getLast_mem (List.ne_nil_of_mem listed)) _ listed
  rw [Default.meaning_eq_reference_iff.mp same] at last
  exact last

/-- A default that is replaced is not looked at. -/
theorem collect_eq_of_replaced {other : Document} {before after : List Mention}
    {mention : Mention} {default : Option Default}
    (parts : document.mentions = before ++ mention :: after) (replaced : mention.Replaced after)
    (changed : other.mentions = before ++ { mention with default := default } :: after)
    (references : other.references = document.references)
    (collected : collect .permissive document = .ok catalogue) :
    collect .permissive other = .ok catalogue := by
  obtain ⟨drafts, gathered, rest⟩ := Except.bind_eq_ok.mp collected
  have gathered' : Draft.gather .permissive other.mentions = .ok drafts := by
    rw [parts] at gathered
    rw [changed]
    refine Draft.gather_eq_ok_of_same ?_ ?_ ?_ gathered
    · simp
    · exact fun name => Mention.given_eq_of_changed rfl rfl
    · exact Mention.draft?_eq_of_replaced before replaced rfl rfl rfl rfl
  refine Except.bind_eq_ok.mpr ⟨drafts, gathered', ?_⟩
  rw [Draft.checkReferences, references]
  exact rest

/-- **Which references are checked.** If a document is collected under the permissive policy, all
its bare references are to variables that it introduces, and so are its defaults, except those that
a later mention replaces: any default could stand in their place, and the catalogue would be the
same. If it is also collected under the strict policy, there is no exception. -/
theorem collect_checks_last_defaults
    (collected : collect .permissive document = .ok catalogue) :
    (∀ name offset, (name, offset) ∈ document.references → document.Introduces name) ∧
    (∀ before mention after target, document.mentions = before ++ mention :: after →
      mention.default = some (.reference target) →
      document.Introduces target ∨ mention.Replaced after) ∧
    (∀ before mention after, document.mentions = before ++ mention :: after →
      mention.Replaced after → ∀ other default, other.references = document.references →
      other.mentions = before ++ { mention with default := default } :: after →
      collect .permissive other = .ok catalogue) ∧
    ((∃ strict, collect .strict document = .ok strict) →
      ∀ name, document.Cites name → document.Introduces name) := by
  refine ⟨?_, ?_, ?_, ?_⟩
  · intro name offset listed
    exact introduces_of_collect collected listed
  · intro before mention after target parts refers
    by_cases replaced : mention.Replaced after
    · exact .inr replaced
    · exact .inl (introduces_of_refersTo collected (refersTo_of_not_replaced parts refers replaced))
  · intro before mention after parts replaced other default references changed
    exact collect_eq_of_replaced parts replaced changed references collected
  · intro ⟨strict, accepted⟩ name cites
    obtain ⟨_, _, agree⟩ := collect_strict_eq_ok.mp accepted
    cases cites with
    | inl bare =>
        obtain ⟨offset, listed⟩ := bare
        exact introduces_of_collect collected listed
    | inr default =>
        obtain ⟨mention, member, refers⟩ := default
        exact introduces_of_refersTo collected (refersTo_of_agree agree member refers)

/-- A source in which a mood refers to nothing first and to a tone in the end. -/
def moodSource : String :=
  "\x7b\x7b mood, defaultValue: $gone \x7d\x7d\x7b\x7b @tone: string = \"calm\" \x7d\x7d" ++
    "\x7b\x7b mood, defaultValue: $tone \x7d\x7d"

/-- The document that it is, with a first default of the mood. -/
def moodDocument (first : Option Default) : Document :=
  ⟨moodSource, [
    .placeholder (.editable "mood" none none first) 0 31,
    .placeholder (.declaration "tone" .string (some (.literal (.string "calm")))) 31 59,
    .placeholder (.editable "mood" none none (some (.reference "tone"))) 59 90]⟩

/-- Its catalogue. -/
def moodCatalogue : Catalogue :=
  [⟨"mood", .string, none, some (.reference "tone"), 0⟩,
    ⟨"tone", .string, none, some (.literal (.string "calm")), 31⟩]

theorem parse_moodSource :
    Document.parse moodSource = .ok (moodDocument (some (.reference "gone"))) := by
    with_unfolding_all rfl

/-- The unknown name is not reported, since the second default replaces the first. -/
theorem collect_moodDocument :
    collect .permissive (moodDocument (some (.reference "gone"))) = .ok moodCatalogue := by
    with_unfolding_all rfl

theorem checks_moodSource :
    Document.parse moodSource = .ok (moodDocument (some (.reference "gone"))) ∧
      collect .permissive (moodDocument (some (.reference "gone"))) = .ok moodCatalogue ∧
      (moodDocument (some (.reference "gone"))).Introduces "tone" ∧
      ∀ first, collect .permissive (moodDocument first) = .ok moodCatalogue := by
  have checked := collect_checks_last_defaults collect_moodDocument
  let first : Mention := ⟨"mood", none, none, some (.reference "gone"), 0⟩
  let tone : Mention := ⟨"tone", some .string, none, some (.literal (.string "calm")), 31⟩
  let last : Mention := ⟨"mood", none, none, some (.reference "tone"), 59⟩
  refine ⟨parse_moodSource, collect_moodDocument, ?_, ?_⟩
  · rcases checked.2.1 [first, tone] last [] "tone" rfl rfl with introduced | ⟨_, member, _⟩
    · exact introduced
    · cases member
  · intro default
    have replaced : first.Replaced [tone, last] := ⟨last, by simp, rfl, _, rfl⟩
    exact checked.2.2.1 [] first [tone, last] rfl replaced _ default rfl rfl

/-- The default that is replaced refers to a name that nothing introduces. -/
theorem moodSource_cites_unknown :
    Document.parse moodSource = .ok (moodDocument (some (.reference "gone"))) ∧
      collect .permissive (moodDocument (some (.reference "gone"))) = .ok moodCatalogue ∧
      (moodDocument (some (.reference "gone"))).Cites "gone" ∧
      ¬(moodDocument (some (.reference "gone"))).Introduces "gone" := by
  refine ⟨parse_moodSource, collect_moodDocument, ?_, ?_⟩
  · exact .inr ⟨⟨"mood", none, none, some (.reference "gone"), 0⟩, List.mem_cons_self, rfl⟩
  · rw [Document.Introduces]
    decide

end Catalogue

end EditableTemplate
