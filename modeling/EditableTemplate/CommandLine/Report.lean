import EditableTemplate.Console.Item
import EditableTemplate.Json.Writer
import EditableTemplate.Loading
import EditableTemplate.Override.File
import EditableTemplate.Rendering
import EditableTemplate.Text.Position

/-!
# Reports on the console

What the commands print: the variables of a template as a table, and the failure that ended a
command (`CommandFault`). In detail, a failure that points at a place in the template is followed
by its line and column, if the template can still be read.
-/

namespace EditableTemplate.CommandLine

/-- Why a command fails. -/
inductive CommandFault
  /-- The template can not be loaded. -/
  | load (fault : LoadFault)
  /-- The file of overrides gives none. -/
  | overrides (fault : OverridesFileFault)
  /-- The template does not render. -/
  | render (fault : RenderFault)
  /-- The output can not be written. -/
  | output (fault : FileFault)

namespace CommandFault

/-- The fault of a failure of the template or its overrides. -/
def ofFailure (failure : Failure) : CommandFault :=
  .render (.failure failure)

/-- The fault in words. -/
def message : CommandFault → String
  | .load fault => fault.message
  | .overrides fault => fault.message
  | .render fault => fault.message
  | .output fault => fault.message

/-- The offset in the template that the fault points at. -/
def offset? : CommandFault → Option Int
  | .load (.template failure) => failure.offset?
  | .render (.failure failure) => failure.offset?
  | _ => none

end CommandFault

/-- The line on an error. -/
def errorLine (markup : String) : ConsoleItem :=
  .ofMarkup (Markup.styled "bold red" "Error:" ++ " " ++ markup)

/-- The text of a file, if it can be read. -/
def readText? (folder : Folder) (path : String) : Option String :=
  match folder.read (Path.ofString path) with
  | .error _ => none
  | .ok bytes => (Utf8.readText bytes).toOption

/-- The line on a place in a text. -/
def locationLine (source : String) (offset : Int) : ConsoleItem :=
  let position := Position.ofOffset source.toList offset
  .styled "yellow" s!"  at line {position.line}, column {position.column}"

/-- The line on the place in the template that a fault points at, if details are wanted. -/
def location? (settings : Settings) (folder : Folder) (template : String) (fault : CommandFault) :
    Option ConsoleItem :=
  match settings.detailed, fault.offset? with
  | true, some offset => (readText? folder template).map (locationLine · offset)
  | _, _ => none

/-- What is printed on a fault. -/
def faultItems (settings : Settings) (folder : Folder) (template : String) (fault : CommandFault) :
    List ConsoleItem :=
  errorLine (Markup.escape fault.message) :: (location? settings folder template fault).toList

/-- The cell of a default: empty without one. -/
def defaultCell (entry : Entry) : String :=
  match entry.default with
  | none => ""
  | some default => Markup.escape (Json.write default.datum)

/-- The cells of a variable. -/
def entryCells (settings : Settings) (entry : Entry) : List String :=
  [entry.name, entry.kind.name, Markup.escape (entry.label.getD ""), defaultCell entry] ++
    if settings.detailed then [toString entry.offset] else []

/-- The table of a catalogue. -/
def catalogueTable (settings : Settings) (catalogue : Catalogue) : ConsoleItem :=
  let columns := ["Name", "Type", "Friendly name", "Default"] ++
    if settings.detailed then ["Offset"] else []
  .titled "Template variables" columns (catalogue.map (entryCells settings))

/-- What is printed on a catalogue. -/
def catalogueItems (settings : Settings) (catalogue : Catalogue) : List ConsoleItem :=
  if catalogue.isEmpty then [.styled "cyan" "No editable variables."]
  else [catalogueTable settings catalogue]

end EditableTemplate.CommandLine
