import EditableTemplate.CommandLine.Arguments
import EditableTemplate.CommandLine.Command
import EditableTemplate.CommandLine.Halt

/-!
# What a command is asked to do

A command line that is understood asks for help or for a job (`Order`). The options are looked at
in the order in which they are given, then the template, then whether anything is left over; the
first fault is the one reported. A file parameter must not name a folder, and may name nothing; one
that holds a null character breaks the program off.
-/

namespace EditableTemplate.CommandLine

/-- A job on the template in a file. -/
inductive Job
  /-- To list its variables, as a table or as JSON. -/
  | catalogue (template : String) (asJson : Bool)
  /-- To check that it renders with its defaults. -/
  | check (template : String)
  /-- To render it, with assignments, a file of overrides, and a file for the output. -/
  | render (template : String) (assignments : Assignments) (overrides output : Option String)
  deriving DecidableEq

/-- What a command is asked for. -/
inductive Order
  /-- To show its help. -/
  | help
  /-- To do a job. -/
  | job (job : Job)
  deriving DecidableEq

namespace Job

/-- A file parameter must not name a folder. -/
def checkFile (folder : Folder) (parameter : FileParameter) (path : String) : Except Halt Unit :=
  if Path.hasNull path then .error (.breakdown .nullCharacter)
  else if folder.isFolderNamed path then .error (.misuse (.isFolder parameter path))
  else .ok ()

/-- The assignments among the arguments. -/
def assignments (arguments : Arguments) : Except Halt Assignments :=
  (Assignments.read (arguments.texts .assign)).mapError fun fault => .misuse (.assignment fault)

/-- The texts of an option must be what it wants. -/
def checkSwitch (folder : Folder) (arguments : Arguments) (switch : Switch) : Except Halt Unit :=
  match switch, arguments.text? switch with
  | .assign, _ => (assignments arguments).map fun _ => ()
  | _, some path => checkFile folder (.option switch) path
  | _, none => .ok ()

/-- The template among the arguments; it must be the only positional argument. -/
def template (folder : Folder) (arguments : Arguments) : Except Halt String :=
  match arguments.positional with
  | [] => .error (.misuse .templateMissing)
  | template :: rest =>
    match checkFile folder .template template, rest with
    | .error halt, _ => .error halt
    | .ok _, [] => .ok template
    | .ok _, rest => .error (.misuse (.extraArguments rest))

/-- The job that a command is given by its arguments. -/
def ofArguments (folder : Folder) (command : Command) (arguments : Arguments) :
    Except Halt Job := do
  arguments.switches.forM (checkSwitch folder arguments)
  let template ← template folder arguments
  match command with
  | .catalogue => pure (.catalogue template (arguments.has .json))
  | .check => pure (.check template)
  | .render =>
    let assignments ← assignments arguments
    pure (.render template assignments (arguments.text? .overrides) (arguments.text? .output))

end Job

/-- What the arguments of a command ask for. -/
def Order.read (folder : Folder) (command : Command) (arguments : List String) :
    Except Halt Order := do
  let arguments ← (Arguments.read command.switches true arguments).mapError .misuse
  match arguments.eager? with
  | some _ => pure .help
  | none => (Job.ofArguments folder command arguments).map .job

end EditableTemplate.CommandLine
