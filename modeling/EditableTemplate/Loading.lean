import EditableTemplate.Files.Folder
import EditableTemplate.Settings
import EditableTemplate.Template.Document

/-!
# Loading templates

A template is made from a text or from a file. A file must not be larger than the settings allow,
which is judged before it is read, and must be strict UTF-8; its line ends are unified.
-/

namespace EditableTemplate

/-- A document with the policies that hold for it. -/
structure Template where
  /-- The document. -/
  document : Document
  /-- The policies. -/
  policy : Policy

/-- Why there is no template. -/
inductive LoadFault
  /-- The file can not be read. -/
  | file (fault : FileFault)
  /-- The file is larger than allowed. -/
  | tooLarge (path : Path) (size : Nat) (limit : Int)
  /-- The file is no text. -/
  | encoding (fault : Utf8.Fault)
  /-- The text is no template. -/
  | template (failure : Failure)

/-- The size that a folder is taken to have, in bytes. -/
def folderSize : Nat := 4096

/-- The size of what a path may name, in bytes. -/
def FileContent.size : FileContent → Nat
  | .folder => folderSize
  | .bytes content => content.length

namespace LoadFault

/-- The fault in words. -/
def message : LoadFault → String
  | .file fault => fault.message
  | .tooLarge path size limit =>
    s!"Template too large: {path.toString} ({size} bytes, limit {limit})"
  | .encoding fault => fault.message
  | .template failure => failure.message

end LoadFault

/-- The text of a file of a folder, unless it is larger than a limit. -/
def Folder.loadText (folder : Folder) (limit : Int) (path : Path) : Except LoadFault String := do
  let content ← (folder.look path).mapError .file
  if limit < content.size then throw (.tooLarge path content.size limit)
  else
    let bytes ← (folder.read path).mapError .file
    (Utf8.readText bytes).mapError .encoding

namespace Template

/-- The template of a text. -/
def ofText (policy : Policy) (source : String) : Except Failure Template :=
  (Document.parse source).map (⟨·, policy⟩)

/-- The template in a file of a folder. -/
def load (settings : Settings) (policy : Policy) (folder : Folder) (name : String) :
    Except LoadFault Template := do
  let source ← folder.loadText settings.maxTemplateBytes (Path.ofString name)
  (ofText policy source).mapError .template

end Template

end EditableTemplate
