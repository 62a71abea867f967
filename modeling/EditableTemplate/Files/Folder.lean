import EditableTemplate.Bindings
import EditableTemplate.Files.Path
import EditableTemplate.Text.Utf8

/-!
# Folders

The folder in which a program runs, as far as the program reads and writes it: files with their
bytes, and folders within it (`Folder`). A path is walked part by part, and each part must be looked
up in a folder (`Folder.walk`), so `a/../b` fails where `a` is missing or a file. Reading and
writing fail for what is wrong with the path (`FileFault`): nothing is there, a file or a folder is
there where the other is wanted, or a name is unfit. Who may read and write is not kept, and neither
is what can go wrong with a file once it is open, such as a full disk, a quota or a faulty device.
-/

namespace EditableTemplate

/-- What a path may name. -/
inductive FileContent
  /-- A folder. -/
  | folder
  /-- A file with its bytes. -/
  | bytes (content : List UInt8)
  deriving DecidableEq

/-- What is wrong with a path where it is used. -/
inductive FileCause
  /-- There is nothing of the name. -/
  | missing
  /-- A file stands where the path goes on. -/
  | notFolder
  /-- The path names a folder. -/
  | isFolder
  /-- A name or the path as a whole is too long. -/
  | tooLong
  deriving DecidableEq, Repr

namespace FileCause

/-- The number of a cause in messages. -/
def number : FileCause → Nat
  | .missing => 2
  | .notFolder => 20
  | .isFolder => 21
  | .tooLong => 36

/-- The cause in words. -/
def words : FileCause → String
  | .missing => "No such file or directory"
  | .notFolder => "Not a directory"
  | .isFolder => "Is a directory"
  | .tooLong => "File name too long"

end FileCause

/-- Why a file can not be read or written. -/
inductive FileFault
  /-- The path holds a null character. -/
  | nullCharacter
  /-- The path does not lead to a file. -/
  | failed (cause : FileCause) (path : Path)
  deriving DecidableEq

/-- The fault in words. -/
def FileFault.message : FileFault → String
  | .nullCharacter => "embedded null byte"
  | .failed cause path =>
    s!"[Errno {cause.number}] {cause.words}: {Text.quoted path.toString}"

/-- The content of the folder in which a program runs, by the paths to what it holds. -/
abbrev Folder := Bindings FileContent

namespace Folder

/-- The place of what is held under a name. -/
def placeOf (name : String) : Place :=
  (Path.ofString name).place

/-- The name under which a folder holds what is at a place. -/
def nameAt? (folder : Folder) (place : Place) : Option String :=
  folder.names.find? fun name => placeOf name = place

/-- Whether there is a folder at a place: the starting point or one around it, a folder held as
such, or one on the way to something else that is held. -/
def isFolderAt (folder : Folder) (place : Place) : Bool :=
  place.names.isEmpty ||
    folder.entries.any fun (name, content) =>
      place.holds (placeOf name) && (placeOf name ≠ place || content = .folder)

/-- What is at a place. -/
def contentAt? (folder : Folder) (place : Place) : Option FileContent :=
  if folder.isFolderAt place then some .folder
  else (folder.nameAt? place).bind folder.find?

/-- The place that a part of a path leads to from a place, where there must be a folder. -/
def step (folder : Folder) (place : Place) (part : String) : Except FileCause Place :=
  match folder.contentAt? place with
  | none => .error .missing
  | some (.bytes _) => .error .notFolder
  | some .folder =>
    if part.utf8ByteSize ≤ Path.maxNameBytes then .ok (place.step part) else .error .tooLong

/-- The place that a path leads to. There need not be anything there. -/
def walk (folder : Folder) (path : Path) : Except FileCause Place :=
  path.parts.foldlM folder.step path.start

/-- The place that a path leads to, unless the path is unfit for use. -/
def locate (folder : Folder) (path : Path) : Except FileFault Place :=
  if path.parts.any Path.hasNull then .error .nullCharacter
  else if Path.maxBytes < path.toString.utf8ByteSize then .error (.failed .tooLong path)
  else (folder.walk path).mapError (.failed · path)

/-- What a path names. -/
def look (folder : Folder) (path : Path) : Except FileFault FileContent := do
  let place ← folder.locate path
  match folder.contentAt? place with
  | some content => pure content
  | none => throw (.failed .missing path)

/-- The bytes of the file that a path names. -/
def read (folder : Folder) (path : Path) : Except FileFault (List UInt8) := do
  match ← folder.look path with
  | .bytes content => pure content
  | .folder => throw (.failed .isFolder path)

/-- The name under which a file written to a path is held. -/
def target (folder : Folder) (path : Path) : Except FileFault String := do
  let place ← folder.locate path
  match folder.contentAt? place with
  | some .folder => throw (.failed .isFolder path)
  | _ => pure ((folder.nameAt? place).getD place.toString)

/-- Whether a text as it stands names a folder. An empty text names nothing. -/
def isFolderNamed (folder : Folder) (text : String) : Bool :=
  text ≠ "" && text.utf8ByteSize ≤ Path.maxBytes &&
    match folder.walk (Path.ofString text) with
    | .ok place => folder.isFolderAt place
    | .error _ => false

end Folder

end EditableTemplate
