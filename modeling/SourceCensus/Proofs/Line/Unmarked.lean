import SourceCensus.Proofs.Line.Lockstep
import SourceCensus.Proofs.Line.Places
import SourceCensus.Proofs.Pattern.Ends

/-!
# Lines that lead nowhere

Many lines of a file leave a scan where it is, and some of these do not count either: such a line is passed
over (`Markers.Skips`).  `Proofs/Line/Places` says what becomes of any line, on the condition that it holds no
newline.  The three kinds of line below need no such condition, because for them it is enough to know that a
marker is missing or out of reach.

* Where the delimiter does not occur, no text block starts and none ends; where the closer does not, no
  comment closes.  For a pattern with a literal text in it matches only where the text occurs
  (`Pattern.isInfix_of_fits`, `Capture.isInfix_of_find?`).
* A line that starts with the marker of a line comment opens nothing, whatever follows: both openers are
  looked for behind characters at which no line comment starts, and here there are none
  (`Pattern.rests_star_at_once`).
* An empty line has no markers at all.
-/

set_option autoImplicit false

namespace SourceCensus

/-! ## Patterns with a literal text in them -/

namespace Pattern

variable {p q : Pattern} {w s : List Char}

theorem isInfix_of_fits (h : fits (.seq p (.seq (.text w) q)) s = true) : w <:+: s := by
  rw [fits, run_seq, run_eq_findSome?, List.isSome_findSome?, List.any_eq_true] at h
  obtain ⟨r, hr, hrun⟩ := h
  rw [run_seq, run_text] at hrun
  split at hrun
  · next hstands =>
    exact (List.isPrefixOf_iff_prefix.mp hstands).isInfix.trans (isSuffix_of_mem_rests hr).isInfix
  · cases hrun

/-- Characters at which `p` does not start are none where it starts at once. -/
theorem rests_star_at_once (h : (rests p s).isEmpty = false) :
    rests (star (seq (notAhead p) any)) s = [s] := by
  have hstep : rests (seq (notAhead p) any) s = [] := by
    rw [rests, rests, h, if_neg Bool.false_ne_true, List.flatMap_nil]
  rw [rests]
  cases s.length with
  | zero => rfl
  | succ n => rw [restsStar, hstep, List.flatMap_nil, List.nil_append]

end Pattern

namespace Capture

variable {before after : Pattern} {w s : List Char}

theorem isInfix_of_find? {accept : List Char → Option Unit}
    (h : (find? ⟨before, .text w, after⟩ accept s).isSome = true) : w <:+: s := by
  rw [find?, Pattern.run_eq_findSome?, List.isSome_findSome?, List.any_eq_true] at h
  obtain ⟨r, hr, hrun⟩ := h
  rw [Pattern.run_text] at hrun
  split at hrun
  · next hstands =>
    exact (List.isPrefixOf_iff_prefix.mp hstands).isInfix.trans
      (Pattern.isSuffix_of_mem_rests hr).isInfix
  · cases hrun

theorem span?_eq_none (h : ¬ w <:+: s) : span? ⟨before, .text w, after⟩ s = none := by
  rw [span?, Option.map_eq_none_iff, ← Option.not_isSome_iff_eq_none]
  exact fun hfind => h (isInfix_of_find? hfind)

end Capture

/-! ## Lines without a marker -/

namespace Markers

variable {lang : Language} {m : Markers} {line : List Char} {strip : Bool} {region : Region}

theorem fits_textStart_of_not_isInfix (h : ofLanguage lang = .ok m)
    (hdelimiter : ¬ lang.textDelimiter <:+: line) : m.textStart.fits line = false := by
  obtain ⟨glue, -, rfl⟩ := ofLanguage_eq_ok_iff.mp h
  rw [Bool.eq_false_iff]
  exact fun hfits => hdelimiter (Pattern.isInfix_of_fits hfits)

theorem hasDelimiter_iff (h : ofLanguage lang = .ok m) :
    m.hasDelimiter line = true ↔ lang.textDelimiter <:+: line := by
  obtain ⟨glue, -, rfl⟩ := ofLanguage_eq_ok_iff.mp h
  exact Text.occursIn_iff lang.textDelimiter line

theorem hasDelimiter_eq_false (h : ofLanguage lang = .ok m) (hdelimiter : ¬ lang.textDelimiter <:+: line) :
    m.hasDelimiter line = false := by
  rw [Bool.eq_false_iff]
  exact fun hhas => hdelimiter ((hasDelimiter_iff h).mp hhas)

/-- A line without the delimiter leaves the plain scan in its region. -/
theorem region_verdict_plain_of_not_isInfix (h : ofLanguage lang = .ok m) (hregion : region ≠ .comment)
    (hdelimiter : ¬ lang.textDelimiter <:+: line) :
    (m.verdict false region line).region = region := by
  cases region with
  | comment => exact absurd rfl hregion
  | code => exact m.region_verdict_plain (fits_textStart_of_not_isInfix h hdelimiter)
  | text => simp [verdict, verdictInText, hasDelimiter_eq_false h hdelimiter]

/-- A line without the closer is a part of the comment in which it stands. -/
theorem verdict_comment_of_not_isInfix (h : ofLanguage lang = .ok m)
    (hclose : ¬ lang.blockClose <:+: line) :
    m.verdict strip .comment line = { counted := false, inText := false, region := .comment } := by
  obtain ⟨glue, -, rfl⟩ := ofLanguage_eq_ok_iff.mp h
  simp only [verdict, verdictInComment, commentCloseCapture, Capture.span?_eq_none hclose]

/-! ## Line comments -/

theorem isEmpty_rests_at_lineComment (hcomment : lang.lineComment <+: line) :
    ((Pattern.text lang.lineComment).rests line).isEmpty = false := by
  rw [Pattern.rests_text, if_pos (List.isPrefixOf_iff_prefix.mpr hcomment)]
  rfl

theorem fits_textStart_of_lineComment (h : ofLanguage lang = .ok m)
    (hcomment : lang.lineComment <+: line) (hdelimiter : ¬ lang.textDelimiter <+: line) :
    m.textStart.fits line = false := by
  obtain ⟨glue, -, rfl⟩ := ofLanguage_eq_ok_iff.mp h
  have hahead : ((Pattern.alt (.text lang.lineComment) (.text lang.blockOpen)).rests line).isEmpty =
      false := by
    have hfirst := isEmpty_rests_at_lineComment hcomment
    rw [List.isEmpty_eq_false_iff] at hfirst ⊢
    rw [Pattern.rests]
    exact List.append_ne_nil_of_left_ne_nil hfirst _
  have hstands : ¬ lang.textDelimiter.isPrefixOf line = true :=
    fun hstands => hdelimiter (List.isPrefixOf_iff_prefix.mp hstands)
  change (Pattern.run (.seq _ (.seq (.text lang.textDelimiter) (.star .any))) line
    Pattern.done).isSome = false
  rw [Pattern.run_seq, Pattern.run_eq_findSome?, Pattern.rests_star_at_once hahead,
    List.findSome?_singleton, Pattern.run_seq, Pattern.run_text, if_neg hstands]
  rfl

/-- If the line comment marker starts with its last character, the opener of a block comment is not seen
in a line that starts with the marker. -/
theorem span?_commentOpen_of_lineComment (h : ofLanguage lang = .ok m)
    (hglue : lang.lineComment.head? = lang.lineComment.getLast?)
    (hcomment : lang.lineComment <+: line) (hopen : ¬ lang.blockOpen <+: line) :
    m.commentOpen.span? line = none := by
  obtain ⟨glue, hlast, rfl⟩ := ofLanguage_eq_ok_iff.mp h
  have hstands : ¬ lang.blockOpen.isPrefixOf line = true :=
    fun hstands => hopen (List.isPrefixOf_iff_prefix.mp hstands)
  -- The character in front of the opener would be the first one of the line, and that is the glue.
  have hfirst : Pattern.rests (.noneOf [.char glue]) line = [] := by
    obtain ⟨t, rfl⟩ := hcomment
    rw [hlast] at hglue
    obtain ⟨behind, hmarker⟩ := List.head?_eq_some_iff.mp hglue
    rw [hmarker]
    simp [Pattern.rests, Pattern.restsOne, Piece.holds]
  have hbefore : (commentOpenCapture lang.lineComment lang.blockOpen glue).before.rests line =
      ((Pattern.star (.seq (.notAhead (.text lang.lineComment)) .any)).rests line).flatMap
        (Pattern.noneOf [.char glue]).rests ++ [line] := rfl
  rw [Pattern.rests_star_at_once (isEmpty_rests_at_lineComment hcomment), List.flatMap_singleton,
    hfirst, List.nil_append] at hbefore
  change (Capture.find? (commentOpenCapture lang.lineComment lang.blockOpen glue) Pattern.done line).map
    _ = none
  rw [Capture.find?, Pattern.run_eq_findSome?, hbefore, List.findSome?_singleton]
  simp only [commentOpenCapture, Pattern.run_text, if_neg hstands, Option.map_none]

/-! ## Lines that are passed over -/

/-- The line does not count, and behind it the scan is in the region in front of it. -/
structure Skips (m : Markers) (strip : Bool) (region : Region) (line : List Char) : Prop where
  counted : (m.verdict strip region line).counted = false
  region : (m.verdict strip region line).region = region

/-- In code, a line that starts with the marker of a line comment is passed over. -/
theorem skips_lineComment (h : ofLanguage lang = .ok m)
    (hglue : lang.lineComment.head? = lang.lineComment.getLast?)
    (hcomment : lang.lineComment <+: line) (hopen : ¬ lang.blockOpen <+: line)
    (hdelimiter : ¬ lang.textDelimiter <+: line) : m.Skips strip .code line := by
  have hstarts := fits_textStart_of_lineComment h hcomment hdelimiter
  have hopener := span?_commentOpen_of_lineComment h hglue hcomment hopen
  have hline : m.isLineComment line = true := by
    obtain ⟨glue, -, rfl⟩ := ofLanguage_eq_ok_iff.mp h
    exact List.isPrefixOf_iff_prefix.mpr hcomment
  have hverdict : m.verdict strip .code line = { counted := false, inText := false, region := .code } := by
    cases strip <;> simp [verdict, hstarts, hopener, verdictInCode, hline]
  exact ⟨by rw [hverdict], by rw [hverdict]⟩

/-- An empty line is passed over in every region. -/
theorem skips_nil (h : ofLanguage lang = .ok m) (hdelimiter : lang.textDelimiter ≠ [])
    (hopen : lang.blockOpen ≠ []) (hclose : lang.blockClose ≠ []) : m.Skips strip region [] := by
  have hmissing {w : List Char} (hw : w ≠ []) : ¬ w <:+: [] := fun hinfix => hw (List.infix_nil.mp hinfix)
  cases region with
  | comment =>
    have hverdict : m.verdict strip .comment [] = _ := verdict_comment_of_not_isInfix h (hmissing hclose)
    exact ⟨by rw [hverdict], by rw [hverdict]⟩
  | text =>
    have hends := hasDelimiter_eq_false h (hmissing hdelimiter)
    exact ⟨rfl, by simp [verdict, verdictInText, hends]⟩
  | code =>
    have hstarts := fits_textStart_of_not_isInfix h (hmissing hdelimiter)
    have hopener : m.commentOpen.span? [] = none := by
      obtain ⟨glue, -, rfl⟩ := ofLanguage_eq_ok_iff.mp h
      exact Capture.span?_eq_none (hmissing hopen)
    have hverdict : m.verdict strip .code [] = { counted := false, inText := false, region := .code } := by
      cases strip <;> simp [verdict, hstarts, hopener, verdictInCode]
    exact ⟨by rw [hverdict], by rw [hverdict]⟩

end Markers

end SourceCensus
