import SourceCensus.Language
import SourceCensus.Line.Verdict
import SourceCensus.Text.Occurrence

/-!
# The verdict by places

`Markers.verdict` tries patterns.  Here the same line is judged by indices alone: where the markers of the
language stand in it, which of them comes first and which last.

* A text block starts where the delimiter first stands, if no comment starts before it.
* A block comment opens at the last place where an opener stands that is not taken for a part of a line
  comment (`Language.opensCommentAt`), and closes at the last place where a closer stands.

No pattern and no order of preference is left in these definitions, so a reader can check them against a
line with a finger.
-/

set_option autoImplicit false

namespace SourceCensus.Language

open Text (standsAt firstAt? lastAt?)

variable (lang : Language)

/-- The delimiter occurs, and neither comment starts in front of its first occurrence. -/
def startsText (line : List Char) : Bool :=
  (firstAt? lang.textDelimiter line).any fun d =>
    (List.range d).all fun j =>
      !standsAt lang.lineComment line j && !standsAt lang.blockOpen line j

/-- What is in front of `i` allows an opener there: nothing, or a character that is not the last one of
the line comment marker and that no line comment starts in front of. -/
def allowsOpenerAt (s : List Char) (i : Nat) : Bool :=
  i == 0 ||
    (s[i - 1]? != lang.lineComment.getLast? &&
      (List.range (i - 1)).all fun j => !standsAt lang.lineComment s j)

def opensCommentAt (line : List Char) (i : Nat) : Bool :=
  standsAt lang.blockOpen line i && lang.allowsOpenerAt line i

/-- The last place where a block comment opens. -/
def lastOpener? (line : List Char) : Option Nat :=
  (List.range (line.length + 1)).findRev? (lang.opensCommentAt line)

theorem lastOpener?_eq_some_iff {line : List Char} {o : Nat} :
    lang.lastOpener? line = some o ↔
      o ≤ line.length ∧ lang.opensCommentAt line o = true ∧
        ∀ i, o < i → i ≤ line.length → lang.opensCommentAt line i = false := by
  rw [lastOpener?, List.findRev?_eq_find?_reverse, Text.find?_reverse_range_eq_some_iff]
  simp only [Nat.lt_succ_iff]

/-- The last opener does not come in front of another one. -/
theorem exists_lastOpener?_ge {line : List Char} {i : Nat} (hi : i ≤ line.length)
    (h : lang.opensCommentAt line i = true) : ∃ o, i ≤ o ∧ lang.lastOpener? line = some o := by
  cases hlast : lang.lastOpener? line with
  | none =>
    rw [lastOpener?, List.findRev?_eq_find?_reverse, List.find?_eq_none] at hlast
    exact absurd h (hlast i (by simpa using Nat.lt_succ_of_le hi))
  | some o =>
    obtain ⟨-, -, hlater⟩ := lang.lastOpener?_eq_some_iff.mp hlast
    refine ⟨o, Nat.le_of_not_lt fun hoi => ?_, rfl⟩
    rw [hlater i hoi hi] at h
    exact Bool.noConfusion h

def verdictInText (line : List Char) : Verdict where
  counted := !line.isEmpty
  inText := true
  region := if Text.occursIn lang.textDelimiter line then .code else .text

def verdictInComment (line : List Char) : Verdict :=
  match lastAt? lang.blockClose line with
  | none => { counted := false, inText := false, region := .comment }
  | some c =>
    { counted := c + lang.blockClose.length + 1 == line.length, inText := false, region := .code }

/-- A line on which a block comment opens at `o`. -/
def verdictAtOpener (o : Nat) (line : List Char) : Verdict :=
  match lastAt? lang.blockClose line with
  | none => { counted := o != 0, inText := false, region := .comment }
  | some c =>
    if c == o + lang.blockOpen.length then { counted := o != 0, inText := false, region := .comment }
    else
      { counted := o != 0 || c + lang.blockClose.length + 1 == line.length
        inText := false
        region := .code }

def verdictInCode (line : List Char) : Verdict where
  counted := !line.isEmpty && !lang.lineComment.isPrefixOf line
  inText := false
  region := .code

/-- The verdict on a trimmed line, with the scan in `region` in front of it. -/
def verdict (strip : Bool) (region : Region) (line : List Char) : Verdict :=
  match region with
  | .text => lang.verdictInText line
  | .comment => lang.verdictInComment line
  | .code =>
    if lang.startsText line then { counted := true, inText := true, region := .text }
    else if strip then
      match lang.lastOpener? line with
      | some o => lang.verdictAtOpener o line
      | none => lang.verdictInCode line
    else lang.verdictInCode line

def verdicts (strip : Bool) : Region → List (List Char) → List Verdict
  | _, [] => []
  | region, line :: lines =>
    let v := lang.verdict strip region line
    v :: verdicts strip v.region lines

end SourceCensus.Language
