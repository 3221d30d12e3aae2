import SourceCensus.Line.Verdict

/-!
# The two flags of a scan

A scan keeps its place between two lines in two flags: one for the inside of a text block, one for the
inside of a block comment.  Nothing in two flags forbids that both are set, and reading a line changes
them one after the other, each test looking at what the ones before it left.

`Markers.classify` reads one line that way, in the order of the tests.  `Region.flags` says how a region
is written in the flags, and `Verdict.reading` how a verdict is.
-/

set_option autoImplicit false

namespace SourceCensus

/-- The place of a scan between two lines. -/
structure Flags where
  inText : Bool := false
  inComment : Bool := false
  deriving Repr, DecidableEq

/-- What a scan says about one line, with the flags behind it. -/
structure Reading where
  /-- The line is a source line. -/
  counted : Bool
  /-- The line belongs to a text block. -/
  inText : Bool
  flags : Flags
  deriving Repr, DecidableEq

def Flags.neutral (flags : Flags) : Bool := !flags.inText && !flags.inComment

def Region.flags : Region → Flags
  | .code => {}
  | .text => { inText := true }
  | .comment => { inComment := true }

def Verdict.reading (v : Verdict) : Reading where
  counted := v.counted
  inText := v.inText
  flags := v.region.flags

namespace Markers

/-- Reads one line.  A text block is looked for first, then the opener of a block comment, and both only
where neither flag is set; the closers are looked for with the flags as the openers leave them. -/
def classify (m : Markers) (strip : Bool) (flags : Flags) (line : List Char) : Reading :=
  let startsText := flags.neutral && m.textStart.fits line
  let opener :=
    if flags.neutral && !startsText && strip then m.commentOpen.span? line else none
  let inText := flags.inText || startsText
  let inComment := flags.inComment || opener.isSome
  let counted := opener.any (·.start != 0) ||
    (!inComment && !line.isEmpty && !(m.isLineComment line && !inText))
  -- A closer that starts right behind an opener of the same line is none.
  let closer :=
    if inComment then
      (m.commentClose.span? line).filter fun close => opener.all (close.start != ·.stop)
    else none
  { counted := counted || closer.any (·.stop + 1 == line.length)
    inText
    flags := {
      inText := inText && (startsText || !m.hasDelimiter line)
      inComment := inComment && closer.isNone } }

/-- Reads the lines of a file in turn. -/
def classifyAll (m : Markers) (strip : Bool) : Flags → List (List Char) → List Reading
  | _, [] => []
  | flags, line :: lines =>
    let r := m.classify strip flags line
    r :: classifyAll m strip r.flags lines

end Markers

end SourceCensus
