import SourceCensus.Error

/-!
# Consoles

What a person is to read goes to a console.  A library does the printing: it knows the tags in square
brackets that switch styles on and off, draws tables, and breaks or cuts what is too wide.  The program decides
none of this.  It hands over texts and tables and gets back what they have become, or the library's complaint.

* `Table`: a table as it is handed over;
* `Console`: the library, as far as it is used.
-/

set_option autoImplicit false

namespace SourceCensus

/-- A column of a table, with the wishes for it. -/
structure TableColumn where
  header : String
  style : Option String := none
  alignRight : Bool := false
  noWrap : Bool := false
  deriving Repr, DecidableEq

/-- A titled table; every row has one cell for each column.  Header and cells may hold tags. -/
structure Table where
  title : String
  /-- Whether lines are drawn between the rows. -/
  showLines : Bool := false
  columns : List TableColumn
  rows : List (List String)
  deriving Repr, DecidableEq

/-- A console: what printing comes to. -/
structure Console where
  width : Nat
  /-- What is printed of a text with tags, with the end of its line. -/
  print : String → Except Defect String
  printTable : Table → Except Defect String
  /-- The plain text of a table, as another console of this width records it. -/
  record : Nat → Table → Except Defect String

end SourceCensus
