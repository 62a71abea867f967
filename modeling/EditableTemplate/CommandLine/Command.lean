import EditableTemplate.CommandLine.Switch
import EditableTemplate.Console.Help
import EditableTemplate.Console.Item
import EditableTemplate.Text.Blank

/-!
# Commands and their help

There are three commands: to list the variables of a template, to check that it renders with its
defaults, and to render it. This module has their names, their options and what help prints for
each of them and for the program as a whole.
-/

namespace EditableTemplate.CommandLine

/-- The name of the program. -/
def programName : String := "balsa"

/-- The version of the program. -/
def version : String := "0.1.0"

/-- A command. -/
inductive Command
  /-- Lists the variables of a template. -/
  | catalogue
  /-- Checks that a template renders with its defaults. -/
  | check
  /-- Renders a template. -/
  | render
  deriving DecidableEq, Repr

namespace Command

/-- All commands, in alphabetical order. -/
def all : List Command := [.catalogue, .check, .render]

/-- The name of a command. -/
def name : Command → String
  | .catalogue => "catalogue"
  | .check => "check"
  | .render => "render"

/-- The command of a name. -/
def ofName? (name : String) : Option Command :=
  all.find? (·.name = name)

/-- What a command does, in one line. -/
def summary : Command → String
  | .catalogue => "List the editable variables of a template"
  | .check => "Check that a template renders with its defaults"
  | .render => "Render a template"

/-- The options of a command. -/
def switches : Command → List Switch
  | .catalogue => [.json, .help]
  | .check => [.help]
  | .render => [.assign, .overrides, .output, .help]

/-- What the help of a command says. -/
def help : Command → Help
  | .catalogue =>
    { command := "catalogue"
      description := "List every editable variable of a template with its type, " ++
        "friendly name and default."
      usage := "balsa catalogue <template> [--json]"
      arguments := Bindings.ofList
        [("<template>", "Template file to inspect."),
          ("--json", "Print the catalogue as a JSON array.")] }
  | .check =>
    { command := "check"
      description := "Parse a template, build its catalogue and resolve every variable " ++
        "from defaults alone."
      usage := "balsa check <template>"
      arguments := Bindings.ofList [("<template>", "Template file to check.")] }
  | .render =>
    { command := "render"
      description := "Render a template, replacing defaults with the given overrides."
      usage := "balsa render <template> [--set name=value ...] " ++
        "[--overrides file.json] [--output file]"
      arguments := Bindings.ofList
        [("<template>", "Template file to render."),
          ("--set", "Override one variable; repeatable. The value is read in the variable's " ++
            "type (42, true, #ff0000, text)."),
          ("--overrides", "JSON object of overrides; --set wins over it."),
          ("--output", "Write the result to a file instead of stdout.")] }

end Command

/-- The options of the program, before any command. -/
def programSwitches : List Switch := [.version, .quiet, .detailed, .help]

/-- What the program does. -/
def purpose : String :=
  "Balsa Template Engine\n\n" ++
    "    Inspect, check and render templates with typed, editable placeholders."

/-- The options as help lists them. -/
def switchGrid (switches : List Switch) : ConsoleItem :=
  .grid (switches.map fun switch => (Markup.escape switch.names, switch.description))

/-- The call of the program, its optional parts in brackets. -/
def synopsis : String :=
  let heading := Help.heading "Usage:"
  let name := Markup.styled "cyan" programName
  let parameters := Markup.styled "magenta" "\\[OPTIONS] COMMAND \\[ARGS]..."
  s!"{heading} {name} {parameters}\n"

/-- What the program prints for help. -/
def programHelp : List ConsoleItem :=
  [.ofMarkup synopsis,
    .ofMarkup (Markup.styled "bold cyan" purpose ++ "\n"),
    .styled "bold green" "Commands:",
    .grid (Command.all.map fun command => (command.name, command.summary)),
    .line "",
    .styled "bold yellow" "Options:",
    switchGrid programSwitches]

/-- What a command prints for help. -/
def Command.helpItems (command : Command) : List ConsoleItem :=
  [.framed (String.ofList (Text.trimEnd command.help.markup.toList)), switchGrid command.switches]

end EditableTemplate.CommandLine
