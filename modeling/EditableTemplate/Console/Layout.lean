import EditableTemplate.Console.Item

/-!
# Plain layout

The lines in which console items are printed where nothing but text can be shown: the columns of a
table are aligned, and a panel is set off by a bar on its left.
-/

namespace EditableTemplate.ConsoleItem

/-- A cell filled up to a width. -/
def padded (width : Nat) (cell : String) : String :=
  cell ++ String.ofList (List.replicate (width - cell.length) ' ')

/-- Widths that also hold the cells of a row. -/
def widen : List Nat → List String → List Nat
  | [], row => row.map String.length
  | widths, [] => widths
  | width :: widths, cell :: row => max width cell.length :: widen widths row

/-- A row of cells on one line. -/
def rowLine (widths : List Nat) (row : List String) : String :=
  String.intercalate "  " (List.zipWith padded widths row)

/-- The lines of a table: its title, its headers unless all are empty, and its rows. -/
def tableLines (title : Option String) (columns : List String) (rows : List (List String)) :
    List String :=
  let headed := if columns.all String.isEmpty then rows else columns :: rows
  title.toList ++ headed.map (rowLine (headed.foldl widen []))

/-- The lines of a console item. -/
def lines : ConsoleItem → List String
  | .line text => [text]
  | .table title columns rows => tableLines title columns rows
  | .panel text => (text.splitOn "\n").map ("| " ++ ·)

end EditableTemplate.ConsoleItem
