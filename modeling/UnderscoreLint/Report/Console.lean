import UnderscoreLint.Text.Column

/-!
# Consoles

What a console is given are panels: lines, and grids of cells. How a panel looks is up to the
console, and a console may fail to show one: some take what stands in brackets for commands, and
not every command makes sense to them.

The plain console takes texts as they are and has room for every column. A row of a grid starts
and ends with a space there; its cells are as wide as the widest of their column and stand two
spaces apart. A row is as many lines as its cells need.
-/

namespace UnderscoreLint

/-- Something to be shown on a console. -/
inductive Panel where
  | line (text : Text)
  | grid (rows : List (List Text))

/-- Somewhere to show panels. -/
structure Console where
  /-- What is written for a panel, if the console can show it. -/
  render? : Panel → Option Text

namespace Panel

/-- The width of each column: that of its widest cell. -/
def widths (rows : List (List Text)) : List Nat :=
  rows.foldl (fun ws row => ws.zipWith max (row.map Text.Column.natural))
    ((rows.headD []).map fun _ => 0)

/-- A line of a row. -/
def rowLine (pieces : List Text) : Text :=
  " " ++ Text.intercalate "  " pieces ++ " "

/-- The lines of a row. A cell that has fewer lines than others is empty in the last ones. -/
def rowLines (widths : List Nat) (row : List Text) : List Text :=
  let columns := widths.zipWith (fun size cell => (size, Text.Column.lines size cell)) row
  let height := columns.foldl (fun n column => max n column.2.length) 0
  (List.range height).map fun i =>
    rowLine (columns.map fun column => column.2.getD i (Text.Column.fit column.1 []))

/-- The lines of a panel. -/
def lines : Panel → List Text
  | .line text => [text]
  | .grid rows => rows.flatMap (rowLines (widths rows))

/-- The panel as it is written, each line with its line feed. -/
def written (p : Panel) : Text :=
  Text.join (p.lines.map (· ++ "\n"))

end Panel

/-- The console that shows everything as it is. -/
def Console.plain : Console where
  render? p := some p.written

end UnderscoreLint
