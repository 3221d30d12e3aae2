import SourceCensus.Pattern.Capture

/-!
# Languages

A *language* is everything the scanners know about the syntax of a source file: the four markers of
comments and text blocks, the shape of an import statement, the shapes of trivial accessors, and the
extension of a file that an import names.

Markers are texts and are found literally; shapes are patterns.  An accessor kind that a language does
not have is absent, and then no line is ever taken for one.
-/

set_option autoImplicit false

namespace SourceCensus

/-- The shape of a trivial accessor: the line that opens it and the one statement it may contain. -/
structure AccessorShape where
  signature : Pattern
  body : Pattern
  deriving Repr, DecidableEq

/-- The syntax of a source file, as far as counting and import extraction need it. -/
structure Language where
  name : String
  /-- The extension of a file that an import names. -/
  extension : String
  /-- What a comment up to the end of the line starts with. -/
  lineComment : List Char
  blockOpen : List Char
  blockClose : List Char
  /-- What a string literal of several lines starts and ends with. -/
  textDelimiter : List Char
  /-- An import statement; its middle part is the imported name. -/
  importShape : Capture
  getter : Option AccessorShape := none
  setter : Option AccessorShape := none
  /-- The line that closes an accessor. -/
  accessorClose : Pattern := .one (.char '}')
  deriving Repr, DecidableEq

/-- The accessor shapes that the language has, in the order in which they are tried. -/
def Language.accessorShapes (lang : Language) : List AccessorShape :=
  lang.getter.toList ++ lang.setter.toList

end SourceCensus
