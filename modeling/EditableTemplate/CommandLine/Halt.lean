import EditableTemplate.CommandLine.Usage
import EditableTemplate.Files.Folder
import EditableTemplate.Json.Reader

/-!
# What stops a command line

A command line that is not understood is answered by a fault of usage. Three things have no answer
at all: a path that holds a null character, a file of overrides that is nested too deep, and output
that holds half of a surrogate pair, which can not be written. They break the program off
(`Breakdown`). A file for the output is opened before that shows, so it is left empty
(`Breakdown.leaves`).
-/

namespace EditableTemplate.CommandLine

/-- Output that can not be written. -/
structure UnwritableOutput where
  /-- The first halves of surrogate pairs in it. -/
  run : SurrogateRun
  /-- The name of the file that was opened for it, unless it goes to the standard output. -/
  opened : Option String
  deriving DecidableEq, Repr

/-- Why the program breaks off. -/
inductive Breakdown
  /-- A path holds a null character. -/
  | nullCharacter
  /-- Overrides are nested too deep. -/
  | tooDeep (container : Json.Container)
  /-- The output holds halves of surrogate pairs. -/
  | unwritable (output : UnwritableOutput)
  deriving DecidableEq, Repr

/-- The cause in words. -/
def Breakdown.message : Breakdown → String
  | .nullCharacter => FileFault.nullCharacter.message
  | .tooDeep container => container.refusal
  | .unwritable output => Utf8.refusal output.run

/-- A folder after the program has broken off in it: a file opened for output is empty. -/
def Breakdown.leaves (folder : Folder) : Breakdown → Folder
  | .unwritable ⟨_, some name⟩ => folder.put name (.bytes [])
  | _ => folder

/-- Why a command line is not carried out. -/
inductive Halt
  /-- It is not understood. -/
  | misuse (fault : UsageFault)
  /-- The program breaks off. -/
  | breakdown (cause : Breakdown)
  deriving DecidableEq, Repr

end EditableTemplate.CommandLine
