import EditableTemplate.Bindings
import EditableTemplate.Files.Folder
import EditableTemplate.Json.Reader

/-!
# Override files

Overrides can be read from a file that holds one JSON object. Everything that can be wrong with such
a file is an `OverridesFileFault`.
-/

namespace EditableTemplate

/-- Why a file gives no overrides. -/
inductive OverridesFileFault
  /-- The file can not be read. -/
  | file (fault : FileFault)
  /-- The file is no text. -/
  | encoding (fault : Utf8.Fault)
  /-- The text is not JSON. -/
  | malformed (text : String) (fault : Json.Fault)
  /-- The text is JSON, but no object; the path as it was given. -/
  | notObject (path : String)

/-- The fault in words. -/
def OverridesFileFault.message : OverridesFileFault → String
  | .file fault => fault.message
  | .encoding fault => fault.message
  | .malformed text fault => fault.message text.toList
  | .notObject path => s!"Overrides file {path} must contain a JSON object"

/-- The overrides in a file of a folder. -/
def Folder.loadOverrides (folder : Folder) (path : String) :
    Except OverridesFileFault (Bindings Datum) := do
  let bytes ← (folder.read (Path.ofString path)).mapError .file
  let text ← (Utf8.readText bytes).mapError .encoding
  match ← (Json.read text.toList).mapError (.malformed text) with
  | .dict entries => pure (Datum.byName entries)
  | _ => throw (.notObject path)

end EditableTemplate
