import SourceCensus.Language

/-!
# Java

The one registered language, and the look-up of a language by name.

Comments run from `//` to the end of the line or between `/*` and `*/`; a text block stands between two
`"""`.  An import names one class: a static or a wildcard import has no name that a file could answer to
and is not taken for one.  A getter or setter is trivial when its signature, one statement that returns or
assigns a field, and the closing brace are all there is of it.
-/

set_option autoImplicit false

namespace SourceCensus.Language

open Pattern

/-! ## Building blocks -/

def blank : Pattern := one .blank

def blanks : Pattern := star blank

def gap : Pattern := plus blank

def literal (s : String) : Pattern := text s.toList

/-- Any number of modifiers, each with a gap behind it. -/
def modifiers : Pattern :=
  star (seq
    (choice (["public", "protected", "private", "static", "final", "synchronized"].map literal)) gap)

/-- A type: a dotted name, type arguments, and array brackets. -/
def typeName : Pattern :=
  chain [
    plus (oneOf [.word, .char '$', .char '.']),
    opt (chain [
      blanks, literal "<",
      star (oneOf [.word, .char '$', .char '.', .char ',', .char '?', .char '<', .char '>',
        .char '[', .char ']', .blank]),
      literal ">"]),
    star (chain [blanks, literal "[", blanks, literal "]"])]

def fieldName : Pattern :=
  seq (oneOf [.range 'A' 'Z', .range 'a' 'z', .char '_', .char '$'])
    (star (oneOf [.word, .char '$']))

/-- A capital letter and what follows it in the name of an accessor. -/
def accessorName : Pattern :=
  seq (oneOf [.range 'A' 'Z']) (star (oneOf [.word, .char '$']))

/-! ## Accessors and imports -/

/-- A method without parameters, named `get…` or `is…`, that returns a field. -/
def javaGetter : AccessorShape where
  signature := chain [
    modifiers, typeName, gap, choice [literal "get", literal "is"], accessorName,
    blanks, literal "(", blanks, literal ")", blanks, literal "\x7b"]
  body := chain [
    literal "return", gap, opt (literal "this."), fieldName, blanks, literal ";"]

/-- A method with one parameter, named `set…`, that assigns it to a field. -/
def javaSetter : AccessorShape where
  signature := chain [
    modifiers, typeName, gap, literal "set", accessorName,
    blanks, literal "(", blanks, opt (seq (literal "final") gap), typeName, gap, fieldName,
    blanks, literal ")", blanks, literal "\x7b"]
  body := chain [
    opt (literal "this."), fieldName, blanks, literal "=", blanks, fieldName, blanks,
    literal ";"]

/-- `import`, one space, a dotted name and a semicolon, alone on its line. -/
def javaImport : Capture where
  before := seq blanks (literal "import ")
  middle := plus (oneOf [.range 'a' 'z', .range 'A' 'Z', .char '_', .char '.'])
  after := seq (literal ";") blanks

def java : Language where
  name := "java"
  extension := ".java"
  lineComment := "//".toList
  blockOpen := "/*".toList
  blockClose := "*/".toList
  textDelimiter := "\"\"\"".toList
  importShape := javaImport
  getter := some javaGetter
  setter := some javaSetter

/-! ## The register -/

def registered : List Language := [java]

/-- The registered language of that name; capital letters do not matter. -/
def find? (name : String) : Option Language :=
  registered.find? fun lang => lang.name == name.map Char.toLower

end SourceCensus.Language
