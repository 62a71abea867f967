import EditableTemplate.CommandLine.Order
import EditableTemplate.CommandLine.Report
import EditableTemplate.Readiness

/-!
# Running a command line

`CommandLine.run` answers a command line in a folder: what goes to the standard output and to the
console, the exit status, and the folder as it is afterwards (`Outcome`). The status is 0 on
success, 1 if a command fails and 2 if the command line is not understood. Rendering is all or
nothing: on failure nothing is written anywhere, except that output that can not be written leaves
the file empty that was opened for it. Control sequences of a terminal are kept in a file and left
out on the standard output.
-/

namespace EditableTemplate.CommandLine

/-- What a run of the program comes to. -/
structure Outcome where
  /-- The exit status. -/
  status : Nat
  /-- The standard output. -/
  stdout : String
  /-- What is printed on the console. -/
  console : List ConsoleItem
  /-- Why the command line is not understood, if it is not. -/
  usage : Option UsageFault
  /-- The folder after the run. -/
  folder : Folder
  deriving DecidableEq

namespace Outcome

/-- Success that leaves the folder as it is. -/
def success (folder : Folder) (stdout : String) (console : List ConsoleItem) : Outcome :=
  ⟨0, stdout, console, none, folder⟩

/-- A command that fails. -/
def failure (folder : Folder) (console : List ConsoleItem) : Outcome :=
  ⟨1, "", console, none, folder⟩

/-- A command line that is not understood. -/
def misuse (folder : Folder) (fault : UsageFault) : Outcome :=
  ⟨2, "", [], some fault, folder⟩

/-- The help of the program for a command line without arguments. -/
def bare (folder : Folder) : Outcome :=
  ⟨2, "", programHelp, none, folder⟩

/-- Help that was asked for, which ends in a newline on the standard output. -/
def help (folder : Folder) (console : List ConsoleItem) : Outcome :=
  success folder "\n" console

end Outcome

/-- The template in a file, and its catalogue. -/
def load (settings : Settings) (folder : Folder) (name : String) :
    Except CommandFault (Template × Catalogue) := do
  let template ← (Template.load settings settings.policy folder name).mapError .load
  let catalogue ←
    (Catalogue.collect template.policy.merge template.document).mapError CommandFault.ofFailure
  pure (template, catalogue)

/-- The overrides in a file; without a file, or with an empty path, there are none. -/
def loadBase (folder : Folder) : Option String → Except CommandFault (Bindings Datum)
  | none => .ok Bindings.empty
  | some "" => .ok Bindings.empty
  | some path => (folder.loadOverrides path).mapError .overrides

/-- The template in a file rendered under assignments over the overrides in another file. The
template is parsed before the overrides are read, and its catalogue is collected after that. -/
def renderText (settings : Settings) (folder : Folder) (name : String) (assignments : Assignments)
    (overrides : Option String) : Except CommandFault CodePoints := do
  let template ← (Template.load settings settings.policy folder name).mapError .load
  let base ← loadBase folder overrides
  let catalogue ←
    (Catalogue.collect template.policy.merge template.document).mapError CommandFault.ofFailure
  let data ← (assignments.build catalogue base).mapError CommandFault.ofFailure
  (template.document.renderWith template.policy (.data data)).mapError .render

/-- The line on output written to a file. -/
def writtenLine (text : CodePoints) (path : String) : ConsoleItem :=
  .styled "bold green" s!"Rendered {text.length} characters to {Markup.escape path}"

/-- The string of output, which holds no half of a surrogate pair, and the file opened for it. -/
def writable (opened : Option String) (text : CodePoints) : Except Breakdown String :=
  (text.plain.map String.ofList).mapError fun run => .unwritable ⟨run, opened⟩

/-- The outcome of output that goes to a file. A fault of writing has no place in the template. -/
def writeOutput (folder : Folder) (text : CodePoints) (path : String) : Except Breakdown Outcome :=
  match folder.target (Path.ofString path) with
  | .error fault =>
    .ok (.failure folder [errorLine (Markup.escape (CommandFault.output fault).message)])
  | .ok name =>
    (writable (some name) text).map fun content =>
      .success (folder.put name (.bytes (Utf8.encode content))) "" [writtenLine text path]

/-- The outcome of output that goes to the standard output. -/
def printOutput (folder : Folder) (text : CodePoints) : Except Breakdown Outcome :=
  (writable none (ControlSequence.remove text)).map fun content => .success folder content []

/-- The outcome of listing the variables of a template. -/
def runCatalogue (settings : Settings) (folder : Folder) (name : String) (asJson : Bool) :
    Outcome :=
  match load settings folder name with
  | .error fault => .failure folder (faultItems settings folder name fault)
  | .ok (_, catalogue) =>
    if asJson then
      .success folder (Json.writeLines (.list (catalogue.map Entry.record)) ++ "\n") []
    else .success folder "" (catalogueItems settings catalogue)

/-- The outcome of rendering a template. -/
def runRender (settings : Settings) (folder : Folder) (name : String) (assignments : Assignments)
    (overrides output : Option String) : Except Breakdown Outcome :=
  match renderText settings folder name assignments overrides, output with
  | .error (.overrides (.malformed _ (.tooDeep container))), _ => .error (.tooDeep container)
  | .error fault, _ => .ok (.failure folder (faultItems settings folder name fault))
  | .ok text, none => printOutput folder text
  | .ok text, some path => writeOutput folder text path

/-- The line on a template that renders with its defaults. -/
def readyLine (name : String) (count : Nat) : ConsoleItem :=
  let heading := Markup.styled "bold green" "OK:"
  .ofMarkup (s!"{heading} {Markup.escape name} " ++
    s!"({count} variable(s), all resolvable from defaults)")

/-- The line on the variables that need an override. -/
def missingLine (names : List String) : ConsoleItem :=
  let listed := Markup.escape (String.intercalate ", " names)
  errorLine s!"{names.length} variable(s) need an override: {listed}"

/-- The outcome of checking a template. -/
def runCheck (settings : Settings) (folder : Folder) (name : String) : Outcome :=
  let found := do
    let (template, catalogue) ← load settings folder name
    (catalogue.readiness template.policy.unknown).mapError CommandFault.ofFailure
  match found with
  | .error fault => .failure folder (faultItems settings folder name fault)
  | .ok (.ready count) => .success folder "" [readyLine name count]
  | .ok (.missing names) => .failure folder [missingLine names]

/-- The outcome of a job. -/
def Job.run (settings : Settings) (folder : Folder) : Job → Except Breakdown Outcome
  | .catalogue template asJson => .ok (runCatalogue settings folder template asJson)
  | .check template => .ok (runCheck settings folder template)
  | .render template assignments overrides output =>
    runRender settings folder template assignments overrides output

/-- The outcome of a command with its arguments. -/
def Command.run (settings : Settings) (folder : Folder) (command : Command)
    (arguments : List String) : Except Breakdown Outcome :=
  match Order.read folder command arguments with
  | .error (.misuse fault) => .ok (.misuse folder fault)
  | .error (.breakdown cause) => .error cause
  | .ok .help => .ok (.help folder command.helpItems)
  | .ok (.job job) => job.run settings folder

/-- What an option of the program that is answered before anything else comes to. -/
def answerEager (folder : Folder) : Switch → Outcome
  | .version => .success folder s!"{programName}, version {version}\n" []
  | _ => .help folder programHelp

/-- The settings under the options of the program: they turn on what the settings leave off. -/
def applySwitches (settings : Settings) (arguments : Arguments) : Settings :=
  { settings with
    quiet := settings.quiet || arguments.has .quiet
    detailed := settings.detailed || arguments.has .detailed }

/-- The outcome of a name that is no command. If it stands where the options had been ended and
looks like one, the arguments are read as options of the program once more. -/
def runUnknown (folder : Folder) (name : String) (arguments : List String) : Outcome :=
  match Arguments.read programSwitches false arguments with
  | .error fault => .misuse folder fault
  | .ok again =>
    match again.eager? with
    | some switch => answerEager folder switch
    | none =>
      .misuse folder (.unknownCommand name (similarNames name (Command.all.map Command.name)))

/-- The outcome of the arguments of the program, read as options and a command. -/
def runArguments (settings : Settings) (folder : Folder) (arguments : Arguments) :
    Except Breakdown Outcome :=
  match arguments.eager?, arguments.positional with
  | some switch, _ => .ok (answerEager folder switch)
  | none, [] => .ok (.misuse folder .commandMissing)
  | none, name :: rest =>
    match Command.ofName? name with
    | some command => command.run (applySwitches settings arguments) folder rest
    | none => .ok (runUnknown folder name (name :: rest))

/-- The outcome of a command line, unless the program breaks off. -/
def run (settings : Settings) (folder : Folder) (arguments : List String) :
    Except Breakdown Outcome :=
  if arguments.isEmpty then .ok (.bare folder)
  else
    match Arguments.read programSwitches false arguments with
    | .error fault => .ok (.misuse folder fault)
    | .ok arguments => runArguments settings folder arguments

end EditableTemplate.CommandLine
