import EditableTemplate.Text.Quoted

/-!
# Paths and places

A path is a text cut at its slashes, where parts that say nothing are dropped: `./a//b` is `a/b`. A
path may go up by the part `..`, so several paths lead to one place. A place (`Place`) is told apart
from others by how far it is up from where paths start and by the names down from there;
`Path.place` is the place of a path if all folders on its way exist.
-/

namespace EditableTemplate

/-- Where a path starts. -/
inductive Anchor
  /-- In the folder in which the program runs. -/
  | here
  /-- At the root of all folders. -/
  | root
  /-- At the root, by two slashes, which are kept. -/
  | doubleRoot
  deriving DecidableEq, Repr

/-- The start of a path as text. -/
def Anchor.text : Anchor → String
  | .here => ""
  | .root => "/"
  | .doubleRoot => "//"

/-- The start of a path that begins with so many slashes. -/
def Anchor.ofSlashes : Nat → Anchor
  | 0 => .here
  | 2 => .doubleRoot
  | _ => .root

/-- A place among folders. -/
structure Place where
  /-- Whether names are counted from the root. -/
  rooted : Bool
  /-- How many folders the place is up from where the program runs. -/
  up : Nat
  /-- The names down from there. -/
  names : List String
  deriving DecidableEq, Repr

namespace Place

/-- The folder that holds a place; the root holds itself. -/
def parent (place : Place) : Place :=
  match place.names with
  | [] => if place.rooted then place else { place with up := place.up + 1 }
  | names => { place with names := names.dropLast }

/-- What a folder at a place holds under a name. -/
def child (place : Place) (name : String) : Place :=
  { place with names := place.names ++ [name] }

/-- The place that a part of a path leads to. -/
def step (place : Place) (part : String) : Place :=
  if part = ".." then place.parent else place.child part

/-- Whether one place is another or holds it at any depth. -/
def holds (place other : Place) : Bool :=
  place.rooted = other.rooted && place.up = other.up && place.names.isPrefixOf other.names

/-- The shortest path to a place, as text. -/
def toString (place : Place) : String :=
  (if place.rooted then "/" else "") ++
    String.intercalate "/" (List.replicate place.up ".." ++ place.names)

end Place

/-- A way through folders. -/
structure Path where
  /-- Where it starts. -/
  anchor : Anchor
  /-- Its parts: names, and `..` for the folder around. -/
  parts : List String
  deriving DecidableEq, Repr

namespace Path

/-- The path that a text stands for. -/
def ofString (text : String) : Path :=
  { anchor := .ofSlashes (text.toList.takeWhile (· = '/')).length
    parts := ((text.toList.splitOn '/').map String.ofList).filter fun part =>
      part ≠ "" ∧ part ≠ "." }

/-- The path as text, in its shortest form. -/
def toString (path : Path) : String :=
  match path.anchor, path.parts with
  | .here, [] => "."
  | anchor, parts => anchor.text ++ String.intercalate "/" parts

/-- The place at which a path starts. -/
def start (path : Path) : Place :=
  { rooted := path.anchor ≠ .here, up := 0, names := [] }

/-- The place that a path leads to. -/
def place (path : Path) : Place :=
  path.parts.foldl Place.step path.start

/-- The paths to what lies on the way, the path itself last. -/
def stages (path : Path) : List Path :=
  (List.range (path.parts.length + 1)).map fun count =>
    { path with parts := path.parts.take count }

/-- The null character, which no path may hold. -/
def nullCharacter : Char := Char.ofNat 0

/-- Whether a text holds a null character, and so is no path. -/
def hasNull (text : String) : Bool :=
  text.toList.contains nullCharacter

/-- The greatest length of a name, in bytes. -/
def maxNameBytes : Nat := 255

/-- The greatest length of a path, in bytes. -/
def maxBytes : Nat := 4095

end Path

end EditableTemplate
