import EditableTemplate.CommandLine.Switch
import EditableTemplate.Console.ControlSequence
import EditableTemplate.Override.Assignment

/-!
# Faults of usage

A command line that can not be understood is a fault of usage (`UsageFault`), told from the failures
of templates. A misspelled option or command is reported together with the names similar to it.
-/

namespace EditableTemplate.CommandLine

/-- A parameter that names a file. -/
inductive FileParameter
  /-- The template. -/
  | template
  /-- An option. -/
  | option (switch : Switch)
  deriving DecidableEq, Repr

/-- The name of a parameter in messages. -/
def FileParameter.name : FileParameter → String
  | .template => "TEMPLATE"
  | .option switch => switch.longName

/-- Why a command line is not understood. -/
inductive UsageFault
  /-- There is no such option; the options with similar names. -/
  | unknownOption (name : String) (similar : List String)
  /-- There is no such command; the commands with similar names. -/
  | unknownCommand (name : String) (similar : List String)
  /-- An option takes a text, and nothing follows it. -/
  | textMissing (option : Switch)
  /-- A flag is given a text. -/
  | textRefused (option : Switch)
  /-- There is no command. -/
  | commandMissing
  /-- There is no template. -/
  | templateMissing
  /-- More follows than a command takes. -/
  | extraArguments (arguments : List String)
  /-- A folder is named where a file is wanted. -/
  | isFolder (parameter : FileParameter) (path : String)
  /-- An assignment assigns nothing. -/
  | assignment (fault : AssignmentFault)
  deriving DecidableEq, Repr

/-- A sentence that offers similar names; empty without any. -/
def suggestion : List String → String
  | [] => ""
  | [name] => s!" Did you mean {Text.quoted name}?"
  | names =>
    let listed := String.intercalate ", " (names.map Text.quoted)
    s!" (Did you mean one of: {listed}?)"

/-- The fault in words. -/
def UsageFault.message : UsageFault → String
  | .unknownOption name similar => s!"No such option {Text.quoted name}.{suggestion similar}"
  | .unknownCommand name similar => s!"No such command {Text.quoted name}.{suggestion similar}"
  | .textMissing option => s!"Option '{option.longName}' requires an argument."
  | .textRefused option => s!"Option '{option.longName}' does not take a value."
  | .commandMissing => "Missing command."
  | .templateMissing => "Missing argument 'TEMPLATE'."
  | .extraArguments arguments =>
    let noun := if arguments.length = 1 then "argument" else "arguments"
    let listed := String.intercalate " " arguments
    s!"Got unexpected extra {noun} ({listed})"
  | .isFolder parameter path =>
    s!"Invalid value for '{parameter.name}': File {Text.quoted path} is a directory."
  | .assignment fault => s!"Invalid value for '{Switch.assign.longName}': {fault.message}"

/-- What is printed on a fault, without control sequences. -/
def UsageFault.printed (fault : UsageFault) : String :=
  (ControlSequence.remove s!"Error: {fault.message}").replaced

end EditableTemplate.CommandLine
