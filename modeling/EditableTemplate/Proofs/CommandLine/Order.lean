import EditableTemplate.CommandLine.Run
import EditableTemplate.Proofs.Except

/-!
# From a command line to a job

A command line that starts with a command is answered by the command
(`CommandLine.run_command`), and if its arguments ask for a job, by the job
(`CommandLine.run_of_read`). Reading the arguments changes nothing, also if it breaks off
(`CommandLine.keeps_read`).
-/

namespace EditableTemplate.CommandLine

variable {folder : Folder}

/-- A command line that starts with a command is answered by it. -/
theorem run_command (settings : Settings) (folder : Folder) (command : Command)
    (arguments : List String) :
    run settings folder (command.name :: arguments) = command.run settings folder arguments := by
  have same : applySwitches settings ⟨[], command.name :: arguments⟩ = settings := by
    simp [applySwitches, Arguments.has]
  have read : Arguments.read programSwitches false (command.name :: arguments) =
      .ok ⟨[], command.name :: arguments⟩ := by
    cases command <;> rfl
  have known : Command.ofName? command.name = some command := by
    cases command <;> decide
  have noneEager : (⟨[], command.name :: arguments⟩ : Arguments).eager? = none := by
    simp [Arguments.eager?, Arguments.switches]
  rw [run, read]
  simp only [List.isEmpty_cons, Bool.false_eq_true, if_false, runArguments, noneEager, known, same]

/-- A command line that is read as a job runs the job. -/
theorem run_of_read (settings : Settings) {arguments : List String} {command : Command} {job : Job}
    (asked : Order.read folder command arguments = .ok (.job job)) :
    run settings folder (command.name :: arguments) = job.run settings folder := by
  rw [run_command, Command.run, asked]

/-- What is not carried out leaves the folder as it is. -/
def Halt.Keeps (folder : Folder) (halt : Halt) : Prop :=
  ∀ cause, halt = .breakdown cause → cause.leaves folder = folder

theorem Halt.keeps_misuse (folder : Folder) (fault : UsageFault) :
    (Halt.misuse fault).Keeps folder :=
  nofun

/-- Where a file that is named is refused, the folder stays as it is. -/
theorem keeps_checkFile (parameter : FileParameter) (path : String) :
    Except.FailsOnly (Halt.Keeps folder) (Job.checkFile folder parameter path) := by
  unfold Job.checkFile
  split
  · apply Except.failsOnly_error
    rintro _ ⟨⟩
    rfl
  · split
    · exact Except.failsOnly_error (Halt.keeps_misuse folder _)
    · exact Except.failsOnly_ok ()

theorem keeps_assignments (arguments : Arguments) :
    Except.FailsOnly (Halt.Keeps folder) (Job.assignments arguments) :=
  Except.failsOnly_mapError fun _ => Halt.keeps_misuse folder _

theorem keeps_checkSwitch (arguments : Arguments) (switch : Switch) :
    Except.FailsOnly (Halt.Keeps folder) (Job.checkSwitch folder arguments switch) := by
  unfold Job.checkSwitch
  split
  · exact (keeps_assignments arguments).map
  · exact keeps_checkFile _ _
  · exact Except.failsOnly_ok ()

theorem keeps_template (arguments : Arguments) :
    Except.FailsOnly (Halt.Keeps folder) (Job.template folder arguments) := by
  unfold Job.template
  split
  · exact Except.failsOnly_error (Halt.keeps_misuse folder _)
  · split
    · rename_i refused _
      exact Except.failsOnly_error (keeps_checkFile _ _ _ refused)
    · exact Except.failsOnly_ok _
    · exact Except.failsOnly_error (Halt.keeps_misuse folder _)

/-- Where the arguments of a command are refused, the folder stays as it is. -/
theorem keeps_ofArguments (command : Command) (arguments : Arguments) :
    Except.FailsOnly (Halt.Keeps folder) (Job.ofArguments folder command arguments) := by
  apply (Except.failsOnly_forM fun switch _ => keeps_checkSwitch arguments switch).bind
  intro _ _
  apply (keeps_template arguments).bind
  intro template _
  cases command with
  | catalogue => exact Except.failsOnly_ok _
  | check => exact Except.failsOnly_ok _
  | render => exact (keeps_assignments arguments).bind fun _ _ => Except.failsOnly_ok _

/-- Reading the arguments of a command leaves the folder as it is. -/
theorem keeps_read (command : Command) (arguments : List String) :
    Except.FailsOnly (Halt.Keeps folder) (Order.read folder command arguments) := by
  apply (Except.failsOnly_mapError fun _ => Halt.keeps_misuse folder _).bind
  intro read _
  split
  · exact Except.failsOnly_ok _
  · exact (keeps_ofArguments command read).map

/-- The job of the command is to render. -/
theorem exists_render_of_read {arguments : List String} {job : Job}
    (asked : Order.read folder .render arguments = .ok (.job job)) :
    ∃ name assignments overrides output, job = .render name assignments overrides output := by
  obtain ⟨read, _, onward⟩ := Except.bind_eq_ok.mp asked
  split at onward
  · cases onward
  · obtain ⟨made, given, same⟩ := Except.map_eq_ok.mp onward
    cases same
    obtain ⟨_, _, rest⟩ := Except.bind_eq_ok.mp given
    obtain ⟨template, _, rest⟩ := Except.bind_eq_ok.mp rest
    obtain ⟨assignments, _, last⟩ := Except.bind_eq_ok.mp rest
    cases last
    exact ⟨_, _, _, _, rfl⟩

end EditableTemplate.CommandLine
