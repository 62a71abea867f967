import EditableTemplate.CommandLine.Run
import EditableTemplate.Proofs.Console.Markup
import EditableTemplate.Proofs.Loading
import EditableTemplate.Proofs.Readiness
import EditableTemplate.Proofs.Spelling
import Mathlib.Data.List.Sublists

/-!
# What the check of a template reports

A template that does not render for want of values is reported with the variables that need an
override, and the line on them shows their names as they are, which hold no markup
(`CommandLine.missingLine_eq`). These are the variables that every override with which the template
resolves has, in the order of the catalogue (`CommandLine.runCheck_lists_required`).
-/

namespace EditableTemplate

namespace CommandLine

variable {settings : Settings} {folder : Folder} {name : String} {template : Template}
  {catalogue : Catalogue}

/-- A command starts from a template that is loaded and from its catalogue. -/
theorem load_eq_ok :
    load settings folder name = .ok (template, catalogue) ↔
      Template.load settings settings.policy folder name = .ok template ∧
        Catalogue.collect template.policy.merge template.document = .ok catalogue := by
  constructor
  · intro ran
    obtain ⟨_, loaded, onward⟩ := Except.bind_eq_ok.mp ran
    obtain ⟨_, collected, same⟩ := Except.bind_eq_ok.mp onward
    cases same
    exact ⟨Except.mapError_eq_ok.mp loaded, Except.mapError_eq_ok.mp collected⟩
  · intro ⟨loaded, collected⟩
    rw [load, loaded]
    simp only [Except.mapError, bind, Except.bind, collected]
    rfl

/-- Resolving a loaded template is resolving its catalogue. -/
theorem resolve_of_load (loaded : load settings folder name = .ok (template, catalogue))
    (source : OverrideSource) :
    template.document.resolve template.policy source =
      Resolution.resolve template.policy.unknown catalogue source := by
  rw [Document.resolve, (load_eq_ok.mp loaded).2]
  rfl

/-- The variables of a loaded template are names of the grammar. -/
theorem isName_of_load (loaded : load settings folder name = .ok (template, catalogue))
    {entry : Entry} (member : entry ∈ catalogue) : IsName entry.name := by
  obtain ⟨found, collected⟩ := load_eq_ok.mp loaded
  obtain ⟨source, _, parsed, _⟩ := Template.load_eq_ok.mp found
  exact (Catalogue.spellable_of_collect parsed collected member).name

/-- The line on names shows them as they are. -/
theorem missingLine_eq {names : List String} (allNames : ∀ name ∈ names, IsName name) :
    missingLine names = .line ("Error: " ++ toString names.length ++
      " variable(s) need an override: " ++ String.intercalate ", " names) := by
  have listed : ∀ c ∈ (String.intercalate ", " names).toList, Markup.isInert c = true :=
    Markup.isInert_of_mem_intercalate (List.all_eq_true.mp (by decide)) fun name member =>
      Markup.isInert_of_isName (allNames name member)
  have told : ∀ c ∈ (toString names.length ++ " variable(s) need an override: " ++
      String.intercalate ", " names).toList, Markup.isInert c = true := by
    intro c member
    rw [String.toList_append, String.toList_append, List.mem_append, List.mem_append] at member
    rcases member with (digit | word) | inside
    · exact Markup.isInert_of_mem_digits digit
    · exact List.all_eq_true.mp (by decide) c word
    · exact listed c inside
  have line := errorLine_eq told
  rw [← String.append_assoc, ← String.append_assoc] at line
  rw [← line, missingLine, Markup.escape_eq_self listed]
  rfl

/-- **The variables that the check lists.** If a template is loaded but does not resolve for want of
a value, the check fails and prints the variables that need an override, and that one among them.
They are the variables that all overrides have with which the template resolves, so those without a
default, and stand in the order of the catalogue. -/
theorem runCheck_lists_required {missing : String}
    (loaded : load settings folder name = .ok (template, catalogue))
    (unresolved : template.document.resolve template.policy .none =
      .error (.unresolved missing)) :
    ∃ names : List String,
      runCheck settings folder name = .failure folder [.line ("Error: " ++ toString names.length ++
        " variable(s) need an override: " ++ String.intercalate ", " names)] ∧
      missing ∈ names ∧ names.Sublist (catalogue.map Entry.name) ∧
      (∀ entry ∈ catalogue, entry.name ∈ names ↔ entry.default = none) ∧
      ∀ required, required ∈ names ↔
        ∀ overrides values, template.document.resolve template.policy (.data overrides) =
          .ok values → required ∈ overrides.names := by
  have sound := Catalogue.sound_of_collect (load_eq_ok.mp loaded).2
  rw [resolve_of_load loaded] at unresolved
  obtain ⟨ready, listed⟩ := sound.readiness_eq_missing unresolved
  have named : ∀ name ∈ catalogue.withoutDefault, IsName name := by
    intro name member
    obtain ⟨entry, inside, rfl, _⟩ := Catalogue.mem_withoutDefault_iff.mp member
    exact isName_of_load loaded inside
  refine ⟨catalogue.withoutDefault, ?_, listed, catalogue.withoutDefault_sublist, ?_, ?_⟩
  · rw [runCheck, loaded, ← missingLine_eq named]
    simp only [bind, Except.bind, ready]
    rfl
  · intro entry member
    rw [Catalogue.mem_withoutDefault_iff]
    constructor
    · intro ⟨other, inside, same, default⟩
      obtain rfl := List.inj_on_of_nodup_map sound.distinct inside member same
      exact default
    · intro default
      exact ⟨entry, member, rfl, default⟩
  · intro required
    simp only [resolve_of_load loaded]
    exact sound.mem_withoutDefault_iff_required _

/-- A template in which the host is the guest, unless someone else is. -/
def invitationSource : String :=
  "\x7b\x7b guest \x7d\x7d, \x7b\x7b host, defaultValue: $guest \x7d\x7d, " ++
    "\x7b\x7b seats : number \x7d\x7d"

/-- A folder with it. -/
def invitationFolder : Folder :=
  Bindings.ofList [("t", .bytes (Utf8.encode invitationSource))]

/-- The template that is loaded from there. -/
def invitation : Template :=
  ⟨⟨invitationSource, [
      .placeholder (.editable "guest" none none none) 0 11,
      .text ", " 11,
      .placeholder (.editable "host" none none (some (.reference "guest"))) 13 45,
      .text ", " 45,
      .placeholder (.editable "seats" (some .number) none none) 47 67]⟩, Settings.initial.policy⟩

/-- Its catalogue. -/
def invitationCatalogue : Catalogue :=
  [⟨"guest", .string, none, none, 0⟩, ⟨"host", .string, none, some (.reference "guest"), 13⟩,
    ⟨"seats", .number, none, none, 47⟩]

theorem load_invitation :
    load Settings.initial invitationFolder "t" = .ok (invitation, invitationCatalogue) := by
  have held : invitationFolder.look (Path.ofString "t") =
      .ok (.bytes (Utf8.encode invitationSource)) := by with_unfolding_all rfl
  have small : ¬Settings.initial.maxTemplateBytes < (Utf8.encode invitationSource).length := by
    decide +kernel
  have decoded : Utf8.readText (Utf8.encode invitationSource) = .ok invitationSource := by
    decide +kernel
  have loaded := Folder.loadText_eq_ok.mpr ⟨_, held, small, decoded⟩
  have parsed : Document.parse invitationSource = .ok invitation.document := by
    with_unfolding_all rfl
  have collected : Catalogue.collect invitation.policy.merge invitation.document =
      .ok invitationCatalogue := by with_unfolding_all rfl
  exact load_eq_ok.mpr ⟨Template.load_eq_ok.mpr ⟨_, loaded, parsed, rfl⟩, collected⟩

theorem lists_required_of_invitation :
    load Settings.initial invitationFolder "t" = .ok (invitation, invitationCatalogue) ∧
      invitation.document.resolve invitation.policy .none = .error (.unresolved "guest") ∧
      runCheck Settings.initial invitationFolder "t" = .failure invitationFolder
        [.line "Error: 2 variable(s) need an override: guest, seats"] := by
  have unresolved : invitation.document.resolve invitation.policy .none =
      .error (.unresolved "guest") := by with_unfolding_all rfl
  obtain ⟨names, listed, _, order, defaults, _⟩ :=
    runCheck_lists_required load_invitation unresolved
  simp only [invitationCatalogue, List.forall_mem_cons] at defaults
  obtain ⟨guest, host, seats, _⟩ := defaults
  have exactly : names = ["guest", "seats"] := by
    have only : ∀ names ∈ (invitationCatalogue.map Entry.name).sublists, "guest" ∈ names →
        "host" ∉ names → "seats" ∈ names → names = ["guest", "seats"] := by decide +kernel
    exact only names (List.mem_sublists.mpr order) (by simp [guest])
      (by simp [host]) (by simp [seats])
  refine ⟨load_invitation, unresolved, ?_⟩
  rw [listed, exactly]
  have line : "Error: " ++ toString ["guest", "seats"].length ++
      " variable(s) need an override: " ++ String.intercalate ", " ["guest", "seats"] =
        "Error: 2 variable(s) need an override: guest, seats" := by decide +kernel
  rw [line]

end CommandLine

end EditableTemplate
