import SourceCensus.Program.Drawing
import SourceCensus.Program.Markup

/-!
# A plain console

The program brings a simple console of its own.  It knows tags and drops styles, and it draws tables as wide
as they come.

* `Program.console`: this console.
-/

set_option autoImplicit false

namespace SourceCensus.Program

/-- A text without its tags, or the complaint about a closing tag that closes nothing. -/
def shown (text : String) : Except Defect String :=
  match Markup.shown? text with
  | some shown => .ok shown
  | none => .error (.foreign "closing tag does not match any open tag")

/-- The line that is printed of a text. -/
def line (text : String) : Except Defect String :=
  match Markup.plain? text with
  | some shown => .ok (shown ++ "\n")
  | none => .error (.foreign "closing tag does not match any open tag")

/-- The drawing of a table, its cells without tags. -/
def drawing (t : Table) : Except Defect String := do
  let rows ← t.rows.mapM fun row => row.mapM shown
  return Table.render { t with rows := rows }

/-- A console that breaks and cuts nothing. -/
def console : Console where
  width := 1000
  print := line
  printTable := drawing
  record _ := drawing

end SourceCensus.Program
