import SourceCensus.Line.Markers
import SourceCensus.Text.Occurrence

/-!
# The verdict on a line

A file is scanned line by line.  Between two lines the scan is in one of three *regions*: plain code, the
inside of a text block, or the inside of a block comment.  A line gets a *verdict*: whether it counts as a
source line, whether it belongs to a text block, and the region behind it.

There are two scans.  The plain one knows text blocks only.  The stripping one also knows block comments
and does not count what lies inside them.  `strip` says which one it is.

* `Markers.verdict`: one line, by cases on the region in front of it;
* `Markers.verdicts`: the lines of a file in turn;
* `Markers.regionAfter`: the region behind them.
-/

set_option autoImplicit false

namespace SourceCensus

/-- Where a scan stands between two lines. -/
inductive Region where
  | code
  | text
  | comment
  deriving Repr, DecidableEq

/-- What a scan says about one line. -/
structure Verdict where
  /-- The line is a source line. -/
  counted : Bool
  /-- The line belongs to a text block. -/
  inText : Bool
  /-- The region behind the line. -/
  region : Region
  deriving Repr, DecidableEq

namespace Markers

/-- Whether the line holds nothing but a comment up to its end. -/
def isLineComment (m : Markers) (line : List Char) : Bool := m.lineComment.isPrefixOf line

def hasDelimiter (m : Markers) (line : List Char) : Bool := Text.occursIn m.textDelimiter line

/-- A line inside a text block: it counts unless it is empty, and the delimiter ends the block. -/
def verdictInText (m : Markers) (line : List Char) : Verdict where
  counted := !line.isEmpty
  inText := true
  region := if m.hasDelimiter line then .code else .text

/-- A line inside a block comment: it counts only when exactly one character stands behind the closer. -/
def verdictInComment (m : Markers) (line : List Char) : Verdict :=
  match m.commentClose.span? line with
  | none => { counted := false, inText := false, region := .comment }
  | some close => { counted := close.stop + 1 == line.length, inText := false, region := .code }

/-- A line on which a block comment opens at `opener`: what stands before the opener counts.  A closer that
starts right behind the opener does not close the comment. -/
def verdictAtOpener (m : Markers) (opener : Span) (line : List Char) : Verdict :=
  match m.commentClose.span? line with
  | none => { counted := opener.start != 0, inText := false, region := .comment }
  | some close =>
    if close.start == opener.stop then
      { counted := opener.start != 0, inText := false, region := .comment }
    else
      { counted := opener.start != 0 || close.stop + 1 == line.length
        inText := false
        region := .code }

def verdictInCode (m : Markers) (line : List Char) : Verdict where
  counted := !line.isEmpty && !m.isLineComment line
  inText := false
  region := .code

def verdictAtDelimiter (line : List Char) : Verdict where
  counted := !line.isEmpty
  inText := true
  region := .text

/-- The verdict on a trimmed line, with the scan in `region` in front of it. -/
def verdict (m : Markers) (strip : Bool) (region : Region) (line : List Char) : Verdict :=
  match region with
  | .text => m.verdictInText line
  | .comment => m.verdictInComment line
  | .code =>
    if m.textStart.fits line then verdictAtDelimiter line
    else if strip then
      match m.commentOpen.span? line with
      | some opener => m.verdictAtOpener opener line
      | none => m.verdictInCode line
    else m.verdictInCode line

def verdicts (m : Markers) (strip : Bool) : Region → List (List Char) → List Verdict
  | _, [] => []
  | region, line :: lines =>
    let v := m.verdict strip region line
    v :: verdicts m strip v.region lines

def regionAfter (m : Markers) (strip : Bool) : Region → List (List Char) → Region
  | region, [] => region
  | region, line :: lines => regionAfter m strip (m.verdict strip region line).region lines

theorem regionAfter_append (m : Markers) (strip : Bool) (region : Region)
    (xs ys : List (List Char)) :
    m.regionAfter strip region (xs ++ ys) =
      m.regionAfter strip (m.regionAfter strip region xs) ys := by
  induction xs generalizing region with
  | nil => rfl
  | cons line lines ih => simp [regionAfter, ih]

end Markers

end SourceCensus
