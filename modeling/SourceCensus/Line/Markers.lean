import SourceCensus.Error
import SourceCensus.Language

/-!
# Markers of a line

Three questions are asked of a trimmed line, and each is a pattern built from the four markers of the
language.

* Does a text block start here?  Its delimiter occurs, and neither a line comment nor a block comment
  starts before it.
* Where does a block comment open?  Its opener occurs at the start of the line, or behind a character
  that is not the last one of the line comment marker and with no line comment in front of that
  character.  Of several such openers the last one counts.  So `//*` opens nothing.
* Where does a block comment close?  At the last closer of the line.

`Markers.ofLanguage` needs the last character of the line comment marker, so a language without one has
no markers.
-/

set_option autoImplicit false

namespace SourceCensus

/-- The markers of a language, as the patterns that lines are tried with. -/
structure Markers where
  lineComment : List Char
  textDelimiter : List Char
  textStart : Pattern
  commentOpen : Capture
  commentClose : Capture
  deriving Repr, DecidableEq

namespace Markers

open Pattern

def textStartPattern (lineComment blockOpen delimiter : List Char) : Pattern :=
  chain [
    star (seq (notAhead (alt (text lineComment) (text blockOpen))) any),
    text delimiter,
    star any]

/-- A line with the opener of a block comment; `glue` is the character that may not touch it. -/
def commentOpenCapture (lineComment blockOpen : List Char) (glue : Char) : Capture where
  before :=
    alt (seq (star (seq (notAhead (text lineComment)) any)) (noneOf [.char glue])) nothing
  middle := text blockOpen
  after := star any

def commentCloseCapture (blockClose : List Char) : Capture where
  before := star any
  middle := text blockClose
  after := star any

/-- The markers of a language that has a line comment marker. -/
def ofLanguage (lang : Language) : Except Defect Markers :=
  match lang.lineComment.getLast? with
  | none => .error .noLineComment
  | some glue => .ok {
      lineComment := lang.lineComment
      textDelimiter := lang.textDelimiter
      textStart := textStartPattern lang.lineComment lang.blockOpen lang.textDelimiter
      commentOpen := commentOpenCapture lang.lineComment lang.blockOpen glue
      commentClose := commentCloseCapture lang.blockClose }

theorem ofLanguage_isOk_iff (lang : Language) :
    (ofLanguage lang).toOption.isSome ↔ lang.lineComment ≠ [] := by
  unfold ofLanguage
  cases h : lang.lineComment.getLast? with
  | none => simp_all [Except.toOption]
  | some c =>
    simp only [Except.toOption, Option.isSome_some, true_iff]
    intro hnil
    simp [hnil] at h

end Markers

end SourceCensus
