import EditableTemplate.Console.Markup

/-!
# What is printed on the console

Besides lines of text the console prints tables and panels. Everything is given as marked-up text
and kept as the plain text that is shown; styles, widths and borders are left to the console.
-/

namespace EditableTemplate

/-- One thing printed on the console, its texts without markup. -/
inductive ConsoleItem
  /-- A text on lines of its own. -/
  | line (text : String)
  /-- A table, perhaps with a title. -/
  | table (title : Option String) (columns : List String) (rows : List (List String))
  /-- A text in a frame. -/
  | panel (text : String)
  deriving DecidableEq, Repr

namespace ConsoleItem

/-- The line that shows a marked-up text. -/
def ofMarkup (markup : String) : ConsoleItem :=
  .line (Markup.plain markup)

/-- The line that shows a text in a style, its own markup in effect. -/
def styled (style markup : String) : ConsoleItem :=
  ofMarkup (Markup.styled style markup)

/-- The table that shows marked-up cells under headers. -/
def titled (title : String) (columns : List String) (rows : List (List String)) : ConsoleItem :=
  .table (some (Markup.plain title)) (columns.map Markup.plain) (rows.map (·.map Markup.plain))

/-- Two columns of marked-up text without headers. -/
def grid (rows : List (String × String)) : ConsoleItem :=
  .table none ["", ""] (rows.map fun (left, right) => [Markup.plain left, Markup.plain right])

/-- The frame that shows a marked-up text. -/
def framed (markup : String) : ConsoleItem :=
  .panel (Markup.plain markup)

end ConsoleItem

end EditableTemplate
