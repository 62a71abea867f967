import EditableTemplate.Proofs.CommandLine.Check
import EditableTemplate.Proofs.CommandLine.Ending
import EditableTemplate.Proofs.CommandLine.Order
import EditableTemplate.Proofs.Defaults

/-!
# What rendering from the command line does

If the command to render succeeds, the output is what the template comes to with its overrides, as
it is in a file and without control sequences on the standard output. If it fails, nothing is put
out, and the folder stays as it is, except that a file opened for output that can not be written is
left empty (`CommandLine.render_all_or_nothing`). Without overrides it succeeds exactly if the
template resolves, and so does the check of the template.
-/

namespace EditableTemplate.CommandLine

variable {settings : Settings} {folder : Folder} {name : String} {assignments : Assignments}
  {overrides output : Option String}

/-- The program ends with the status of success. -/
def Succeeds (answer : Except Breakdown Outcome) : Prop :=
  ∃ outcome, answer = .ok outcome ∧ outcome.status = 0

/-- The template in a file resolves without overrides. -/
def ResolvesAlone (settings : Settings) (folder : Folder) (name : String) : Prop :=
  ∃ template values, Template.load settings settings.policy folder name = .ok template ∧
    template.document.resolve template.policy .none = .ok values

/-- A template resolves alone where it is loaded and every variable has a value without
overrides. -/
theorem resolvesAlone_iff :
    ResolvesAlone settings folder name ↔
      ∃ template catalogue values, load settings folder name = .ok (template, catalogue) ∧
        Resolution.resolve template.policy.unknown catalogue .none = .ok values := by
  constructor
  · intro ⟨template, values, loaded, resolved⟩
    obtain ⟨catalogue, collected, ran⟩ := Except.bind_eq_ok.mp resolved
    exact ⟨template, catalogue, values, load_eq_ok.mpr ⟨loaded, collected⟩, ran⟩
  · intro ⟨template, catalogue, values, loaded, ran⟩
    refine ⟨template, values, (load_eq_ok.mp loaded).1, ?_⟩
    rw [resolve_of_load loaded]
    exact ran

/-- The check of a template succeeds exactly if it resolves without overrides. -/
theorem status_runCheck_eq_zero :
    (runCheck settings folder name).status = 0 ↔ ResolvesAlone settings folder name := by
  rw [resolvesAlone_iff]
  constructor
  · intro success
    simp only [runCheck] at success
    split at success
    · cases success
    · rename_i count found
      obtain ⟨⟨template, catalogue⟩, loaded, ready⟩ := Except.bind_eq_ok.mp found
      obtain ⟨_, values, resolved⟩ :=
        Catalogue.readiness_eq_ready.mp (Except.mapError_eq_ok.mp ready)
      exact ⟨template, catalogue, values, loaded, resolved⟩
    · cases success
  · intro alone
    obtain ⟨template, catalogue, values, loaded, resolved⟩ := alone
    have ready := Catalogue.readiness_eq_ready.mpr ⟨rfl, values, resolved⟩
    rw [runCheck, loaded]
    simp only [bind, Except.bind, ready]
    rfl

/-- Without overrides rendering succeeds exactly if the template resolves: the output is there, and
it holds characters only. -/
theorem succeeds_runRender_iff :
    Succeeds (runRender settings folder name Bindings.empty none none) ↔
      ResolvesAlone settings folder name := by
  constructor
  · intro ⟨outcome, ended, success⟩
    have ending := ending_runRender settings folder name Bindings.empty none none
    rw [ended] at ending
    cases ending with
    | refused console => cases success
    | printed renders shown =>
        obtain ⟨template, base, catalogue, data, loaded, read, _, built, rendered⟩ := renders
        cases read
        cases built
        obtain ⟨values, resolved, _⟩ := Document.renderWith_eq_ok.mp rendered
        exact ⟨template, values, loaded, resolved⟩
  · intro ⟨template, values, loaded, resolved⟩
    obtain ⟨catalogue, collected, _⟩ := Except.bind_eq_ok.mp resolved
    obtain ⟨source, _, parsed, _⟩ := Template.load_eq_ok.mp loaded
    obtain ⟨text, rendered, plain⟩ := Document.exists_renderWith_none parsed resolved
    have renders : Renders settings folder name Bindings.empty none text :=
      ⟨template, _, catalogue, _, loaded, rfl, collected, rfl, rendered⟩
    have unplaced : ∀ path, none = some path →
        ∃ target, folder.target (Path.ofString path) = .ok target := fun _ => nofun
    obtain ⟨outcome, ran, success, _⟩ := exists_delivers renders plain unplaced
    exact ⟨outcome, ran, success⟩

/-- A command line that is read as rendering ends as the rendering does. -/
theorem ending_of_read (settings : Settings) {arguments : List String}
    (asked : Order.read folder .render arguments =
      .ok (.job (.render name assignments overrides output))) :
    Ending settings folder name assignments overrides output
      (run settings folder ("render" :: arguments)) := by
  have answered := run_of_read settings asked
  rw [Command.name] at answered
  rw [answered]
  exact ending_runRender settings folder name assignments overrides output

/-- A command line to render ends in one of the ways of the job that it asks for, or it asks for no
job, and then nothing happens to the folder. -/
theorem run_render_cases (settings : Settings) (folder : Folder) (arguments : List String) :
    (∃ name assignments overrides output, Order.read folder .render arguments =
        .ok (.job (.render name assignments overrides output)) ∧
      Ending settings folder name assignments overrides output
        (run settings folder ("render" :: arguments))) ∨
    (∃ fault, run settings folder ("render" :: arguments) = .ok (.misuse folder fault)) ∨
    run settings folder ("render" :: arguments) = .ok (.help folder (Command.helpItems .render)) ∨
    ∃ cause, run settings folder ("render" :: arguments) = .error cause ∧
      cause.leaves folder = folder := by
  have answered : run settings folder ("render" :: arguments) =
      Command.run settings folder .render arguments := run_command settings folder .render arguments
  cases asked : Order.read folder .render arguments with
  | error halt =>
      rw [answered, Command.run, asked]
      cases halt with
      | misuse fault => exact .inr (.inl ⟨fault, rfl⟩)
      | breakdown cause =>
          exact .inr (.inr (.inr ⟨cause, rfl, keeps_read .render arguments _ asked cause rfl⟩))
  | ok order =>
      cases order with
      | help =>
          rw [answered, Command.run, asked]
          exact .inr (.inr (.inl rfl))
      | job job =>
          obtain ⟨name, assignments, overrides, output, rfl⟩ := exists_render_of_read asked
          exact .inl ⟨name, assignments, overrides, output, rfl, ending_of_read settings asked⟩

/-- **All or nothing.** If the command to render succeeds, the template renders with its overrides,
and the output goes where it should. If it fails, nothing is put out and the folder stays as it is,
and so it does if the program breaks off, except that a file for output with halves of surrogate
pairs is left empty. Without overrides and with the output on the standard output, the command
succeeds exactly if the template resolves, and so does the check of the template. -/
theorem render_all_or_nothing (settings : Settings) (folder : Folder) (arguments : List String) :
    (∀ name assignments overrides output outcome, Order.read folder .render arguments =
        .ok (.job (.render name assignments overrides output)) →
      run settings folder ("render" :: arguments) = .ok outcome → outcome.status = 0 →
      ∃ text, Renders settings folder name assignments overrides text ∧
        Delivers folder text outcome output) ∧
    (∀ outcome, run settings folder ("render" :: arguments) = .ok outcome → outcome.status ≠ 0 →
      outcome.stdout = "" ∧ outcome.folder = folder) ∧
    (∀ cause, run settings folder ("render" :: arguments) = .error cause →
      cause.leaves folder = folder ∨
        ∃ name assignments overrides path text halves target,
          Order.read folder .render arguments =
            .ok (.job (.render name assignments overrides (some path))) ∧
          Renders settings folder name assignments overrides text ∧ text.plain = .error halves ∧
          folder.target (Path.ofString path) = .ok target ∧
          cause.leaves folder = folder.put target (.bytes [])) ∧
    ∀ name others, Order.read folder .render arguments =
        .ok (.job (.render name Bindings.empty none none)) →
      Order.read folder .check others = .ok (.job (.check name)) →
      (Succeeds (run settings folder ("check" :: others)) ↔
        Succeeds (run settings folder ("render" :: arguments))) ∧
      (Succeeds (run settings folder ("render" :: arguments)) ↔
        ResolvesAlone settings folder name) := by
  refine ⟨?_, ?_, ?_, ?_⟩
  · intro name assignments overrides output outcome asked ended success
    have ending := ending_of_read settings asked
    rw [ended] at ending
    exact ending.delivers success
  · intro outcome ended failed
    rcases run_render_cases settings folder arguments with
      ⟨_, _, _, _, _, ending⟩ | ⟨fault, misused⟩ | helped | ⟨cause, stopped, _⟩
    · rw [ended] at ending
      exact ending.keeps failed
    · cases ended.symm.trans misused
      exact ⟨rfl, rfl⟩
    · cases ended.symm.trans helped
      exact (failed rfl).elim
    · cases ended.symm.trans stopped
  · intro cause ended
    rcases run_render_cases settings folder arguments with
      ⟨name, assignments, overrides, _, asked, ending⟩ | ⟨fault, misused⟩ | helped |
        ⟨_, stopped, kept⟩
    · rw [ended] at ending
      rcases ending.leaves with kept | ⟨path, text, halves, target, rfl, emptied⟩
      · exact .inl kept
      · exact .inr ⟨name, assignments, overrides, path, text, halves, target, asked, emptied⟩
    · cases ended.symm.trans misused
    · cases ended.symm.trans helped
    · cases ended.symm.trans stopped
      exact .inl kept
  · intro name others asked checked
    have rendered : run settings folder ("render" :: arguments) =
        runRender settings folder name Bindings.empty none none := run_of_read settings asked
    have looked : run settings folder ("check" :: others) =
        .ok (runCheck settings folder name) := run_of_read settings checked
    rw [rendered, looked, succeeds_runRender_iff]
    refine ⟨?_, .rfl⟩
    rw [← status_runCheck_eq_zero]
    constructor
    · intro ⟨_, same, success⟩
      cases same
      exact success
    · intro success
      exact ⟨_, rfl, success⟩

/-- A folder with a template that greets. -/
def greetingFolder : Folder :=
  Bindings.ofList [("t", .bytes (Utf8.encode "Hi \x7b\x7b a, defaultValue: \"you\" \x7d\x7d"))]

/-- The outcome of rendering it for someone into a file. -/
def greetingOutcome : Outcome :=
  .success (greetingFolder.put "w" (.bytes (Utf8.encode "Hi me"))) ""
    [.line "Rendered 5 characters to w"]

theorem all_or_nothing_greeting :
    run Settings.initial greetingFolder ["render", "t", "--set", "a=me", "--output", "w"] =
        .ok greetingOutcome ∧
      (∃ text,
        Renders Settings.initial greetingFolder "t" (Bindings.ofList [("a", "me")]) none text ∧
        Delivers greetingFolder text greetingOutcome (some "w")) ∧
      (Succeeds (run Settings.initial greetingFolder ["check", "t"]) ↔
        Succeeds (run Settings.initial greetingFolder ["render", "t"])) ∧
      (Succeeds (run Settings.initial greetingFolder ["render", "t"]) ↔
        ResolvesAlone Settings.initial greetingFolder "t") := by
  have asked : Order.read greetingFolder .render ["t", "--set", "a=me", "--output", "w"] =
      .ok (.job (.render "t" (Bindings.ofList [("a", "me")]) none (some "w"))) := by decide +kernel
  have ran : runRender Settings.initial greetingFolder "t" (Bindings.ofList [("a", "me")]) none
      (some "w") = .ok greetingOutcome := by decide +kernel
  have ended := (run_of_read Settings.initial asked).trans ran
  have plainly : Order.read greetingFolder .render ["t"] =
      .ok (.job (.render "t" Bindings.empty none none)) := by decide +kernel
  have checked : Order.read greetingFolder .check ["t"] = .ok (.job (.check "t")) := by
    decide +kernel
  refine ⟨ended, ?_, ?_⟩
  · exact (render_all_or_nothing Settings.initial greetingFolder _).1 _ _ _ _ _ asked ended rfl
  · exact (render_all_or_nothing Settings.initial greetingFolder ["t"]).2.2.2 _ _ plainly checked

/-- A folder with a template that holds a control sequence, one with a variable, overrides with half
of a surrogate pair, and an earlier output. -/
def fragileFolder : Folder :=
  Bindings.ofList [("b", .bytes (Utf8.encode "\x1b[1mx")),
    ("t", .bytes (Utf8.encode "\x7b\x7b a \x7d\x7d")),
    ("j", .bytes (Utf8.encode "\x7b\"a\": \"\\ud800\"\x7d")), ("w", .bytes (Utf8.encode "x"))]

/-- The output on the standard output is not the text, and a failure empties the earlier output. -/
theorem render_fragileFolder_loses :
    (∃ outcome text, run Settings.initial fragileFolder ["render", "b"] = .ok outcome ∧
      outcome.status = 0 ∧ Renders Settings.initial fragileFolder "b" Bindings.empty none text ∧
      CodePoints.ofString outcome.stdout ≠ text) ∧
    ∃ cause, run Settings.initial fragileFolder
        ["render", "t", "--overrides", "j", "--output", "w"] = .error cause ∧
      fragileFolder.find? "w" = some (.bytes (Utf8.encode "x")) ∧
      (cause.leaves fragileFolder).find? "w" = some (.bytes []) := by
  constructor
  · have asked : Order.read fragileFolder .render ["b"] =
        .ok (.job (.render "b" Bindings.empty none none)) := by decide +kernel
    have rendered : renderText Settings.initial fragileFolder "b" Bindings.empty none =
        .ok (CodePoints.ofString "\x1b[1mx") := by decide +kernel
    have ran : runRender Settings.initial fragileFolder "b" Bindings.empty none none =
        .ok (.success fragileFolder "x" []) := by decide +kernel
    exact ⟨_, _, (run_of_read Settings.initial asked).trans ran, rfl,
      renderText_eq_ok.mp rendered, by decide⟩
  · have asked : Order.read fragileFolder .render ["t", "--overrides", "j", "--output", "w"] =
        .ok (.job (.render "t" Bindings.empty (some "j") (some "w"))) := by decide +kernel
    have ran : runRender Settings.initial fragileFolder "t" Bindings.empty (some "j") (some "w") =
        .error (.unwritable ⟨⟨0, .surrogate 0, 1⟩, some "w"⟩) := by decide +kernel
    exact ⟨_, (run_of_read Settings.initial asked).trans ran, rfl, rfl⟩

end EditableTemplate.CommandLine
