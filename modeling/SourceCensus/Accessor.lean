import SourceCensus.Error
import SourceCensus.Language

/-!
# Trivial accessors

A trivial getter or setter is boilerplate that says nothing about the size of a program.  It is found among
the *candidates*, the counted code lines of a file in order: either one line that holds signature, body
and closing brace, or three candidates in a row that hold one part each.  Lines that are no candidates
(blank lines, comments, text blocks) may stand in between.

* `AccessorShape.isSignature`, `isBody`, `isClose`, `isWhole`: the four tests of a line;
* `Accessor.spanAt`: how many candidates the accessor at the front takes up;
* `Accessor.positions`: the line numbers of all accessors, found from the front without overlap;
* `Accessor.find`: the same, for candidates given by their line numbers.
-/

set_option autoImplicit false

namespace SourceCensus

namespace AccessorShape

def isSignature (shape : AccessorShape) (line : List Char) : Bool := shape.signature.fitsLine line

def isBody (shape : AccessorShape) (line : List Char) : Bool := shape.body.fitsLine line

/-- The accessor on one line. -/
def whole (shape : AccessorShape) (close : Pattern) : Pattern :=
  .chain [shape.signature, .star (.one .blank), shape.body, .star (.one .blank), close]

def isWhole (shape : AccessorShape) (close : Pattern) (line : List Char) : Bool :=
  (shape.whole close).fitsLine line

end AccessorShape

namespace Accessor

/-- A candidate: its line number and the trimmed line. -/
abbrev Candidate := Nat × List Char

/-- How many candidates an accessor of the shape takes up that starts with `head`, `rest` behind it. -/
def spanOf? (close : Pattern) (head : List Char) (rest : List Candidate) (shape : AccessorShape) :
    Option Nat :=
  if shape.isWhole close head then some 1
  else
    match rest with
    | second :: third :: _ =>
      if shape.isSignature head && shape.isBody second.2 && close.fitsLine third.2 then some 3
      else none
    | _ => none

/-- How many candidates the accessor that starts with `head` takes up, by the first shape that fits. -/
def spanAt? (shapes : List AccessorShape) (close : Pattern) (head : List Char)
    (rest : List Candidate) : Option Nat :=
  shapes.findSome? (spanOf? close head rest)

/-- The line numbers of the accessors among the candidates.  `skip` candidates at the front belong to an
accessor that was found before them. -/
def positionsFrom (shapes : List AccessorShape) (close : Pattern) :
    Nat → List Candidate → List Nat
  | _, [] => []
  | skip + 1, c :: rest => c.1 :: positionsFrom shapes close skip rest
  | 0, c :: rest =>
    match spanAt? shapes close c.2 rest with
    | none => positionsFrom shapes close 0 rest
    | some n => c.1 :: positionsFrom shapes close (n - 1) rest

def positions (shapes : List AccessorShape) (close : Pattern) (candidates : List Candidate) :
    List Nat :=
  positionsFrom shapes close 0 candidates

/-- The accessors of a file, its candidates given by their line numbers.  A number beyond the lines is a
defect, unless the language has no accessors at all. -/
def find (lang : Language) (lines : List (List Char)) (candidates : List Nat) :
    Except Defect (List Nat) :=
  if lang.accessorShapes.isEmpty then .ok []
  else
    match candidates.mapM fun i => lines[i]?.map fun line => (i, line) with
    | none => .error .noSuchLine
    | some found => .ok (positions lang.accessorShapes lang.accessorClose found)

end Accessor

end SourceCensus
