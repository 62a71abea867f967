import EditableTemplate.Bindings
import EditableTemplate.Console.Markup

/-!
# Help texts

The help of a command is marked-up text with a fixed layout: what the command does, how it is
called, and what its arguments mean. The call and the arguments are shown literally, and the
descriptions may have markup of their own.
-/

namespace EditableTemplate

/-- What the help of a command says. -/
structure Help where
  /-- The name of the command. -/
  command : String
  /-- What it does. -/
  description : String
  /-- How it is called. -/
  usage : String
  /-- Its arguments, each with what it means. -/
  arguments : Bindings String

namespace Help

/-- The indentation of calls and arguments. -/
def indent : String := "    "

/-- A heading. -/
def heading (text : String) : String :=
  Markup.styled "bold yellow" text

/-- A literal text of the command line. -/
def literal (text : String) : String :=
  indent ++ Markup.styled "green" (Markup.escape text)

/-- The lines on the arguments; none without arguments. -/
def argumentLines (help : Help) : List String :=
  match help.arguments.entries with
  | [] => []
  | entries =>
    ["", heading "Arguments:"] ++ entries.map fun (argument, meaning) =>
      literal argument ++ ": " ++ meaning

/-- The lines of the help. -/
def lines (help : Help) : List String :=
  let name := Markup.styled "bold cyan" help.command
  [s!"{name}: {help.description}", "", heading "Usage:", literal help.usage] ++ help.argumentLines

/-- The help as marked-up text. -/
def markup (help : Help) : String :=
  String.intercalate "\n" help.lines ++ "\n"

end Help

end EditableTemplate
