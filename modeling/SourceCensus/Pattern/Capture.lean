import SourceCensus.Pattern

/-!
# Captures

A *capture* is a pattern in three parts whose middle part is asked for: the opener of a comment within
its line, or the name within an import statement.  It is tried like the sequence of its parts, so of all
the ways to divide a text the best one in the order of `Pattern.rests` is found.

* `Capture.find?`: what is left of the text at the middle part and behind it;
* `Capture.span?`: the place of the middle part, when the parts make up the whole text;
* `Capture.word?`: the characters of the middle part, when the parts make up the whole line.
-/

set_option autoImplicit false

namespace SourceCensus

/-- A pattern whose middle part is asked for. -/
structure Capture where
  before : Pattern
  middle : Pattern
  after : Pattern
  deriving Repr, DecidableEq

/-- A stretch of a text: where it starts, and where the text goes on behind it. -/
structure Span where
  start : Nat
  stop : Nat
  deriving Repr, DecidableEq

namespace Capture

/-- What is left of `s` at the middle part and behind it, when the parts match `s` up to an end that
`accept` allows. -/
def find? (c : Capture) (accept : List Char → Option Unit) (s : List Char) :
    Option (List Char × List Char) :=
  c.before.run s fun atMiddle =>
    c.middle.run atMiddle fun behind =>
      c.after.run behind fun left => (accept left).map fun _ => (atMiddle, behind)

/-- The place of the middle part, when the parts make up the whole text. -/
def span? (c : Capture) (s : List Char) : Option Span :=
  (c.find? Pattern.done s).map fun (atMiddle, behind) =>
    ⟨s.length - atMiddle.length, s.length - behind.length⟩

/-- The characters of the middle part, when the parts make up the whole line. -/
def word? (c : Capture) (s : List Char) : Option (List Char) :=
  (c.find? Pattern.lineDone s).map fun (atMiddle, behind) =>
    atMiddle.take (atMiddle.length - behind.length)

/-- The capture in the usual notation, anchored at both ends of the line. -/
def source (c : Capture) : String :=
  "^" ++ c.before.source ++ "(" ++ c.middle.source ++ ")" ++ c.after.source ++ "$"

end Capture

end SourceCensus
