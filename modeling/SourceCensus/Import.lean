import SourceCensus.Language

/-!
# Imports

The imports of a file are the names that its import statements carry, in file order and with repetitions.
A line is an import statement as a whole or not at all; the newline characters at its end do not matter.

* `Import.dropNewlines`: a line without the newline characters at its end;
* `Import.ofLine?`: the name a line imports;
* `Import.ofLines`: the names a file imports.
-/

set_option autoImplicit false

namespace SourceCensus.Import

/-- Whether `c` is a newline character. -/
def isNewline (c : Char) : Bool := c == '\r' || c == '\n'

/-- The line without the newline characters at its end. -/
def dropNewlines (line : List Char) : List Char := (line.reverse.dropWhile isNewline).reverse

/-- The name that the line imports. -/
def ofLine? (lang : Language) (line : List Char) : Option String :=
  (lang.importShape.word? (dropNewlines line)).map String.ofList

/-- The names that the lines import, in order. -/
def ofLines (lang : Language) (lines : List (List Char)) : List String :=
  lines.filterMap (ofLine? lang)

end SourceCensus.Import
