import EditableTemplate.CommandLine.Run
import EditableTemplate.Proofs.Loading
import EditableTemplate.Proofs.Spelling
import EditableTemplate.Proofs.Text.Plain

/-!
# How rendering a file ends

The text to put out is what the template comes to with its overrides (`CommandLine.Renders`). A run
of the job ends in one of the ways of `CommandLine.Ending`: if it succeeds, the text is delivered
(`CommandLine.Ending.delivers`), and if it fails, nothing is put out and the folder stays as it is
(`CommandLine.Ending.keeps`). If the program breaks off, a file opened for output is left empty, and
nothing else is changed (`CommandLine.Ending.leaves`).
-/

namespace EditableTemplate.CommandLine

variable {settings : Settings} {folder : Folder} {name : String} {assignments : Assignments}
  {overrides output : Option String}

/-- What a template in a file comes to, with assignments over the overrides in another file. -/
def Renders (settings : Settings) (folder : Folder) (name : String) (assignments : Assignments)
    (overrides : Option String) (text : CodePoints) : Prop :=
  ∃ template base catalogue data,
    Template.load settings settings.policy folder name = .ok template ∧
    loadBase folder overrides = .ok base ∧
    Catalogue.collect template.policy.merge template.document = .ok catalogue ∧
    assignments.build catalogue base = .ok data ∧
    template.document.renderWith template.policy (.data data) = .ok text

/-- The text of the command is what the template comes to. -/
theorem renderText_eq_ok {text : CodePoints} :
    renderText settings folder name assignments overrides = .ok text ↔
      Renders settings folder name assignments overrides text := by
  simp only [renderText, Renders, Except.bind_eq_ok, Except.mapError_eq_ok]
  constructor
  · intro ⟨template, loaded, base, read, catalogue, collected, data, built, rendered⟩
    exact ⟨template, base, catalogue, data, loaded, read, collected, built, rendered⟩
  · intro ⟨template, base, catalogue, data, loaded, read, collected, built, rendered⟩
    exact ⟨template, loaded, base, read, catalogue, collected, data, built, rendered⟩

/-! ## How a run ends -/

/-- A text can be written where it is that of a string. -/
theorem writable_eq_ok {opened : Option String} {text : CodePoints} {content : String} :
    writable opened text = .ok content ↔ text = CodePoints.ofString content := by
  rw [writable, Except.mapError_eq_ok, Except.map_eq_ok]
  constructor
  · intro ⟨chars, plain, same⟩
    subst same
    rw [CodePoints.plain_eq_ok.mp plain, CodePoints.ofChars_eq_ofString]
  · intro same
    exact ⟨content.toList, CodePoints.plain_eq_ok.mpr same, String.ofList_toList⟩

/-- A text can not be written for the first run of lone surrogates in it. -/
theorem writable_eq_error {opened : Option String} {text : CodePoints} {cause : Breakdown} :
    writable opened text = .error cause ↔
      ∃ run, text.plain = .error run ∧ cause = .unwritable ⟨run, opened⟩ := by
  rw [writable]
  cases text.plain with
  | ok chars => simp [Except.map, Except.mapError]
  | error run => simp [Except.map, Except.mapError, eq_comm]

/-- The ways in which a run of the command ends: the text is refused, is too deep an object of
overrides, or is there, and then it has a place or none and can be written there or not. -/
inductive Ending (settings : Settings) (folder : Folder) (name : String)
    (assignments : Assignments) (overrides : Option String) :
    Option String → Except Breakdown Outcome → Prop
  | refused {output : Option String} (console : List ConsoleItem) :
      Ending settings folder name assignments overrides output (.ok (.failure folder console))
  | tooDeep {output : Option String} (container : Json.Container) :
      Ending settings folder name assignments overrides output (.error (.tooDeep container))
  | printed {text : CodePoints} {content : String}
      (renders : Renders settings folder name assignments overrides text)
      (shown : ControlSequence.remove text = CodePoints.ofString content) :
      Ending settings folder name assignments overrides none (.ok (.success folder content []))
  | unprintable {text : CodePoints} {run : SurrogateRun}
      (renders : Renders settings folder name assignments overrides text)
      (halves : (ControlSequence.remove text).plain = .error run) :
      Ending settings folder name assignments overrides none (.error (.unwritable ⟨run, none⟩))
  | written {text : CodePoints} {path target content : String}
      (renders : Renders settings folder name assignments overrides text)
      (place : folder.target (Path.ofString path) = .ok target)
      (whole : text = CodePoints.ofString content) :
      Ending settings folder name assignments overrides (some path)
        (.ok (.success (folder.put target (.bytes (Utf8.encode content))) ""
          [writtenLine text path]))
  | emptied {text : CodePoints} {path target : String} {run : SurrogateRun}
      (renders : Renders settings folder name assignments overrides text)
      (place : folder.target (Path.ofString path) = .ok target)
      (halves : text.plain = .error run) :
      Ending settings folder name assignments overrides (some path)
        (.error (.unwritable ⟨run, some target⟩))

/-- Printing what the template comes to is an ending of the command. -/
theorem ending_printOutput {text : CodePoints}
    (renders : Renders settings folder name assignments overrides text) :
    Ending settings folder name assignments overrides none (printOutput folder text) := by
  rw [printOutput]
  cases written : writable none (ControlSequence.remove text) with
  | ok content => exact .printed renders (writable_eq_ok.mp written)
  | error cause =>
      obtain ⟨run, halves, rfl⟩ := writable_eq_error.mp written
      exact .unprintable renders halves

/-- Writing what the template comes to is an ending of the command. -/
theorem ending_writeOutput {text : CodePoints} (path : String)
    (renders : Renders settings folder name assignments overrides text) :
    Ending settings folder name assignments overrides (some path)
      (writeOutput folder text path) := by
  rw [writeOutput]
  cases place : folder.target (Path.ofString path) with
  | error fault => exact .refused _
  | ok target =>
      cases written : writable (some target) text with
      | ok content =>
          simp only [written]
          exact .written renders place (writable_eq_ok.mp written)
      | error cause =>
          obtain ⟨run, halves, rfl⟩ := writable_eq_error.mp written
          simp only [written]
          exact .emptied renders place halves

/-- Every run of the command has one of the endings. -/
theorem ending_runRender (settings : Settings) (folder : Folder) (name : String)
    (assignments : Assignments) (overrides output : Option String) :
    Ending settings folder name assignments overrides output
      (runRender settings folder name assignments overrides output) := by
  unfold runRender
  split
  · exact .tooDeep _
  · exact .refused _
  · rename_i text rendered
    exact ending_printOutput (renderText_eq_ok.mp rendered)
  · rename_i text path rendered
    exact ending_writeOutput path (renderText_eq_ok.mp rendered)

/-- Where the output goes: to the standard output without control sequences, so as it is if it has
no escape character, or as it is to a file and nowhere else. -/
def Delivers (folder : Folder) (text : CodePoints) (outcome : Outcome) : Option String → Prop
  | none =>
    CodePoints.ofString outcome.stdout = ControlSequence.remove text ∧
      (.character ControlSequence.escape ∉ text → CodePoints.ofString outcome.stdout = text) ∧
      outcome.folder = folder
  | some path =>
    outcome.stdout = "" ∧ ∃ target content, folder.target (Path.ofString path) = .ok target ∧
      CodePoints.ofString content = text ∧
      outcome.folder = folder.put target (.bytes (Utf8.encode content))

/-- A text of characters is put out. -/
theorem exists_printOutput (folder : Folder) {text : CodePoints} (plain : text.IsPlain) :
    ∃ content, ControlSequence.remove text = .ofString content ∧
      printOutput folder text = .ok (.success folder content []) := by
  obtain ⟨chars, shown⟩ := plain.of_sublist (ControlSequence.remove_sublist text)
  rw [CodePoints.ofChars_eq_ofString] at shown
  have written : writable none (ControlSequence.remove text) = .ok (String.ofList chars) :=
    writable_eq_ok.mpr shown
  refine ⟨String.ofList chars, shown, ?_⟩
  rw [printOutput, written]
  rfl

/-- What renders to a text of characters is delivered, to a file if it has a place. -/
theorem exists_delivers {text : CodePoints}
    (renders : Renders settings folder name assignments overrides text) (plain : text.IsPlain)
    (placed : ∀ path, output = some path →
      ∃ target, folder.target (Path.ofString path) = .ok target) :
    ∃ outcome, runRender settings folder name assignments overrides output = .ok outcome ∧
      outcome.status = 0 ∧ Delivers folder text outcome output := by
  unfold runRender
  rw [renderText_eq_ok.mpr renders]
  cases output with
  | none =>
      obtain ⟨content, shown, printed⟩ := exists_printOutput folder plain
      refine ⟨_, printed, rfl, shown.symm, fun absent => ?_, rfl⟩
      rw [ControlSequence.remove_eq_self absent] at shown
      exact shown.symm
  | some path =>
      obtain ⟨target, place⟩ := placed path rfl
      obtain ⟨chars, rfl⟩ := plain
      rw [CodePoints.ofChars_eq_ofString]
      have written : writable (some target) (.ofString (String.ofList chars)) =
          .ok (String.ofList chars) := writable_eq_ok.mpr rfl
      simp only [writeOutput, place, written]
      exact ⟨_, rfl, rfl, rfl, target, _, place, rfl, rfl⟩

namespace Ending

variable {outcome : Outcome}

/-- An ending with success delivers a text that the template comes to. -/
theorem delivers
    (ending : Ending settings folder name assignments overrides output (.ok outcome))
    (success : outcome.status = 0) :
    ∃ text, Renders settings folder name assignments overrides text ∧
      Delivers folder text outcome output := by
  cases ending with
  | refused console => cases success
  | printed renders shown =>
      refine ⟨_, renders, shown.symm, ?_, rfl⟩
      intro absent
      rw [ControlSequence.remove_eq_self absent] at shown
      exact shown.symm
  | written renders place whole =>
      exact ⟨_, renders, rfl, _, _, place, whole.symm, rfl⟩

/-- An ending without success prints nothing to the standard output and leaves the folder as it
is. -/
theorem keeps
    (ending : Ending settings folder name assignments overrides output (.ok outcome))
    (failed : outcome.status ≠ 0) : outcome.stdout = "" ∧ outcome.folder = folder := by
  cases ending with
  | refused console => exact ⟨rfl, rfl⟩
  | printed renders shown => exact (failed rfl).elim
  | written renders place whole => exact (failed rfl).elim

/-- A run that breaks off keeps the folder, unless a file is opened for what can not be written. -/
theorem leaves {cause : Breakdown}
    (ending : Ending settings folder name assignments overrides output (.error cause)) :
    cause.leaves folder = folder ∨
      ∃ path text halves target, output = some path ∧
        Renders settings folder name assignments overrides text ∧ text.plain = .error halves ∧
        folder.target (Path.ofString path) = .ok target ∧
        cause.leaves folder = folder.put target (.bytes []) := by
  cases ending with
  | tooDeep container => exact .inl rfl
  | unprintable renders halves => exact .inl rfl
  | emptied renders place halves => exact .inr ⟨_, _, _, _, rfl, renders, halves, place, rfl⟩

end Ending

end EditableTemplate.CommandLine
