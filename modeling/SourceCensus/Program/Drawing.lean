import SourceCensus.Output.Console

/-!
# Boxed tables

A table is drawn with a heavy head and a light body.  A column is as wide as its longest cell or its header,
with a space on each side; no cell is broken or cut.  The title is centred over the whole width, one place
to the left when it does not come out even.  Styles are not drawn.

* `Table.render`: the drawing of a table without tags.
-/

set_option autoImplicit false

namespace SourceCensus

namespace Table

/-- The text with spaces to the width, on its left if `alignRight`. -/
def pad (alignRight : Bool) (width : Nat) (s : List Char) : List Char :=
  let spaces := List.replicate (width - s.length) ' '
  if alignRight then spaces ++ s else s ++ spaces

/-- The width that each column needs for its header and its cells. -/
def widths (t : Table) : List Nat :=
  t.rows.foldl (fun ws row => ws.zipWith max (row.map String.length))
    (t.columns.map (·.header.length))

/-- A ruled line: its ends, what it is drawn with and what it meets the column borders with. -/
def rule (left line cross right : Char) (widths : List Nat) : List Char :=
  left :: ([cross].intercalate (widths.map fun w => List.replicate (w + 2) line)) ++ [right, '\n']

/-- A line of cells between borders. -/
def cells (border : Char) (columns : List TableColumn) (widths : List Nat) (row : List String) :
    List Char :=
  let padded := (columns.zip (widths.zip row)).map fun (column, width, cell) =>
    ' ' :: pad column.alignRight width cell.toList ++ [' ']
  border :: [border].intercalate padded ++ [border, '\n']

/-- The title over a table of the width. -/
def titleLine (title : List Char) (width : Nat) : List Char :=
  pad false width (List.replicate ((width - title.length) / 2) ' ' ++ title) ++ ['\n']

/-- The drawing of the table. -/
def render (t : Table) : String :=
  let ws := t.widths
  let total := ws.foldr (fun w total => w + 3 + total) 1
  String.ofList <|
    titleLine t.title.toList total ++
      rule '┏' '━' '┳' '┓' ws ++
      cells '┃' t.columns ws (t.columns.map (·.header)) ++
      rule '┡' '━' '╇' '┩' ws ++
      t.rows.flatMap (cells '│' t.columns ws) ++
      rule '└' '─' '┴' '┘' ws

end Table

end SourceCensus
