import EditableTemplate.CommandLine.Run
import EditableTemplate.Console.Layout

/-!
# The program

The command line run in the real folder: whatever the arguments may name is read beforehand, the
command line is answered, and what has changed is written afterwards.
-/

namespace EditableTemplate.CommandLine

/-- The paths that an argument may name, itself or what follows its equals sign, and those on the
way to them. -/
def pathsOf (argument : String) : List String :=
  let (name, text) := OptionArgument.split argument
  (argument :: name :: text.toList).flatMap fun path =>
    (Path.ofString path).stages.map Path.toString

/-- What a path names in the real folder, if it names anything. -/
def readPath (path : String) : IO (Option FileContent) := do
  try
    let content ← IO.FS.readBinFile path
    pure (some (.bytes content.toList))
  catch
    | .inappropriateType _ number _ =>
      pure (if number.toNat = FileCause.isFolder.number then some .folder else none)
    | _ => pure none

/-- The part of the real folder that the arguments may name. -/
def readFolder (arguments : List String) : IO Folder :=
  (arguments.flatMap pathsOf).eraseDups.foldlM (fun folder path => do
    match ← readPath path with
    | some content => pure (folder.put path content)
    | none => pure folder) Bindings.empty

/-- Writes the files that differ from what they were. -/
def writeFolder (before after : Folder) : IO Unit :=
  after.entries.forM fun (path, content) => do
    match content with
    | .folder => pure ()
    | .bytes bytes =>
      if before.find? path = some content then pure ()
      else IO.FS.writeBinFile path (ByteArray.mk bytes.toArray)

/-- The variables of the real environment that hold settings. -/
def readEnvironment : IO (List (String × String)) := do
  let found ← Settings.Field.all.mapM fun field => do
    let value ← IO.getEnv field.variableName.toUpper
    pure (value.map fun value => (field.variableName, value))
  pure (found.filterMap id)

/-- Prints an outcome. -/
def printOutcome (outcome : Outcome) : IO Unit := do
  outcome.console.forM fun item => item.lines.forM fun line => IO.println line
  IO.print outcome.stdout
  match outcome.usage with
  | none => pure ()
  | some fault =>
    IO.eprintln s!"Try '{programName} --help' for help."
    IO.eprintln fault.printed

/-- Answers a command line in the real folder; the exit status. -/
def serve (settings : Settings) (arguments : List String) : IO UInt32 := do
  let folder ← readFolder arguments
  match run settings folder arguments with
  | .ok outcome =>
    writeFolder folder outcome.folder
    printOutcome outcome
    pure (UInt32.ofNat outcome.status)
  | .error cause =>
    writeFolder folder (cause.leaves folder)
    IO.eprintln cause.message
    pure 1

end EditableTemplate.CommandLine

open EditableTemplate in
/-- The program. -/
def main (arguments : List String) : IO UInt32 := do
  match Settings.ofEnvironment (← CommandLine.readEnvironment) with
  | .ok settings => CommandLine.serve settings arguments
  | .error fields =>
    let names := String.intercalate ", " (fields.map Settings.Field.name)
    IO.eprintln s!"Invalid settings: {names}"
    pure 1
