import SourceCensus.Accessor
import SourceCensus.Line.Verdict

/-!
# Counting source lines

Two counts are taken of a file.

* The *baseline* drops blank lines and lines that are only a line comment.
* The *enhanced* count also drops block comments and, if asked, trivial accessors.  The stripping scan
  runs beside the plain one, and a line counts only when both count it; so the enhanced count never
  exceeds the baseline.

`Survey` is what both scans say about each line of a file; the counts are read off it.

* `Survey.ofLines`: both scans over the trimmed lines;
* `Survey.baseline`, `Survey.shared`, `Survey.enhanced`: the counts;
* `Survey.candidates`: the lines among which accessors are looked for;
* `countLines`: the count that a caller asks for.
-/

set_option autoImplicit false

namespace SourceCensus

inductive CountMode where
  | baseline
  | enhanced
  deriving Repr, DecidableEq

namespace CountMode

def name : CountMode → String
  | baseline => "baseline"
  | enhanced => "enhanced"

def ofName (s : String) : Except Defect CountMode :=
  if s = baseline.name then .ok baseline
  else if s = enhanced.name then .ok enhanced
  else .error (.unknownMode s)

end CountMode

/-- A trimmed line and what the two scans say about it. -/
structure Surveyed where
  line : List Char
  plain : Verdict
  stripping : Verdict
  deriving Repr, DecidableEq

namespace Surveyed

def shared (s : Surveyed) : Bool := s.plain.counted && s.stripping.counted

/-- Whether the line can be part of an accessor: it is counted and no text block. -/
def isCandidate (s : Surveyed) : Bool := s.shared && !s.stripping.inText

end Surveyed

abbrev Survey := List Surveyed

namespace Survey

/-- Both scans over the lines, each line trimmed first. -/
def ofLinesFrom (m : Markers) : Region → Region → List (List Char) → Survey
  | _, _, [] => []
  | plainRegion, strippingRegion, raw :: lines =>
    let line := Text.trim raw
    let plain := m.verdict false plainRegion line
    let stripping := m.verdict true strippingRegion line
    ⟨line, plain, stripping⟩ :: ofLinesFrom m plain.region stripping.region lines

def ofLines (m : Markers) (lines : List (List Char)) : Survey :=
  ofLinesFrom m .code .code lines

def baseline (s : Survey) : Nat := s.countP (·.plain.counted)

def shared (s : Survey) : Nat := s.countP Surveyed.shared

/-- The lines that can be part of an accessor, with their numbers from `start` on. -/
def candidatesFrom : Nat → Survey → List Accessor.Candidate
  | _, [] => []
  | start, s :: rest =>
    if s.isCandidate then (start, s.line) :: candidatesFrom (start + 1) rest
    else candidatesFrom (start + 1) rest

def candidates (s : Survey) : List Accessor.Candidate := candidatesFrom 0 s

/-- The numbers of the lines that belong to trivial accessors. -/
def accessorLines (lang : Language) (s : Survey) : List Nat :=
  Accessor.positions lang.accessorShapes lang.accessorClose s.candidates

/-- The lines that both scans count, without trivial accessors if asked. -/
def enhanced (lang : Language) (dropAccessors : Bool) (s : Survey) : Nat :=
  if dropAccessors then s.shared - (s.accessorLines lang).length else s.shared

theorem length_ofLinesFrom (m : Markers) (p q : Region) (lines : List (List Char)) :
    (ofLinesFrom m p q lines).length = lines.length := by
  induction lines generalizing p q with
  | nil => rfl
  | cons raw lines ih => simp [ofLinesFrom, ih]

theorem length_ofLines (m : Markers) (lines : List (List Char)) :
    (ofLines m lines).length = lines.length :=
  length_ofLinesFrom m .code .code lines

theorem map_plain_ofLinesFrom (m : Markers) (p q : Region) (lines : List (List Char)) :
    (ofLinesFrom m p q lines).map Surveyed.plain = m.verdicts false p (lines.map Text.trim) := by
  induction lines generalizing p q with
  | nil => rfl
  | cons raw lines ih => simp [ofLinesFrom, Markers.verdicts, ih]

theorem map_stripping_ofLinesFrom (m : Markers) (p q : Region) (lines : List (List Char)) :
    (ofLinesFrom m p q lines).map Surveyed.stripping = m.verdicts true q (lines.map Text.trim) := by
  induction lines generalizing p q with
  | nil => rfl
  | cons raw lines ih => simp [ofLinesFrom, Markers.verdicts, ih]

end Survey

/-- The number of source lines of a file that a caller asks for. -/
def countLines (lang : Language) (mode : CountMode) (dropAccessors : Bool)
    (lines : List (List Char)) : Except Defect Nat := do
  let markers ← Markers.ofLanguage lang
  let survey := Survey.ofLines markers lines
  match mode with
  | .baseline => return survey.baseline
  | .enhanced => return survey.enhanced lang dropAccessors

end SourceCensus
