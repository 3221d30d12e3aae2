import SourceCensus.Language.Java
import SourceCensus.Line.Flags
import SourceCensus.Proofs.Count.Order
import SourceCensus.Proofs.Line.Places

/-!
# The flags are a region

A scan that keeps its place in two flags and updates them one after the other could come to a fourth
place, where both are set, and what one test leaves could mislead the next.  It does neither:

> from any region, reading a line through the flags is the verdict on the line, written in flags.

`classify_flags` is that sentence, one case for each region and each of the patterns that can match there.
Whole files follow by induction on the lines, and with `verdicts_eq` the patterns go as well: what is left
is a machine of three regions that looks at where the markers stand.
-/

set_option autoImplicit false

namespace SourceCensus

theorem Region.not_both_flags (region : Region) :
    ¬ (region.flags.inText = true ∧ region.flags.inComment = true) := by
  cases region <;> simp [flags]

theorem Region.inComment_flags_iff (region : Region) :
    region.flags.inComment = true ↔ region = .comment := by
  cases region <;> simp [flags]

namespace Markers

variable (m : Markers) (line : List Char)

/-! ## One line -/

theorem classify_text (strip : Bool) :
    m.classify strip Region.text.flags line = (m.verdictInText line).reading := by
  simp only [classify, verdictInText, Verdict.reading, Region.flags, Flags.neutral]
  cases m.hasDelimiter line <;> simp

theorem classify_comment (strip : Bool) :
    m.classify strip Region.comment.flags line = (m.verdictInComment line).reading := by
  simp only [classify, verdictInComment, Verdict.reading, Region.flags, Flags.neutral]
  cases m.commentClose.span? line <;> simp

theorem classify_start (strip : Bool) (h : m.textStart.fits line = true) :
    m.classify strip Region.code.flags line = (verdictAtDelimiter line).reading := by
  simp [classify, verdictAtDelimiter, Verdict.reading, Region.flags, Flags.neutral, h]

theorem classify_opener {opener : Span} (h : m.textStart.fits line = false)
    (hopener : m.commentOpen.span? line = some opener) :
    m.classify true Region.code.flags line = (m.verdictAtOpener opener line).reading := by
  simp only [classify, verdictAtOpener, Verdict.reading, Region.flags, Flags.neutral, h, hopener]
  cases m.commentClose.span? line with
  | none => simp
  | some close =>
    by_cases hglued : close.start = opener.stop
    · simp [Option.filter, hglued]
    · simp [Option.filter, hglued]

theorem classify_plain {strip : Bool} (h : m.textStart.fits line = false)
    (hopener : strip = true → m.commentOpen.span? line = none) :
    m.classify strip Region.code.flags line = (m.verdictInCode line).reading := by
  have hnone : (if strip then m.commentOpen.span? line else none) = none := by
    cases strip with
    | false => rfl
    | true => exact hopener rfl
  simp [classify, verdictInCode, Verdict.reading, Region.flags, Flags.neutral, h, hnone]

/-- Reading a line through the flags is the verdict on it. -/
theorem classify_flags (strip : Bool) (region : Region) :
    m.classify strip region.flags line = (m.verdict strip region line).reading := by
  cases region with
  | text => exact m.classify_text line strip
  | comment => exact m.classify_comment line strip
  | code =>
    rw [verdict]
    cases hstart : m.textStart.fits line with
    | true => exact m.classify_start line strip hstart
    | false =>
      cases strip with
      | false => exact m.classify_plain line hstart fun h => Bool.noConfusion h
      | true =>
        cases hopener : m.commentOpen.span? line with
        | some opener => exact m.classify_opener line hstart hopener
        | none => exact m.classify_plain line hstart fun _ => hopener

/-! ## All lines -/

theorem classifyAll_flags (strip : Bool) (region : Region) (lines : List (List Char)) :
    m.classifyAll strip region.flags lines =
      (m.verdicts strip region lines).map Verdict.reading := by
  induction lines generalizing region with
  | nil => rfl
  | cons line lines ih =>
    have hflags : (m.verdict strip region line).reading.flags =
        (m.verdict strip region line).region.flags := rfl
    simp only [classifyAll, verdicts, List.map_cons]
    rw [classify_flags, hflags, ih]

theorem region_ne_comment_of_mem_verdicts {region : Region} {lines : List (List Char)}
    (h : region ≠ .comment) {v : Verdict} (hv : v ∈ m.verdicts false region lines) :
    v.region ≠ .comment := by
  induction lines generalizing region with
  | nil => exact absurd hv List.not_mem_nil
  | cons line lines ih =>
    rcases List.mem_cons.mp hv with rfl | hv
    · exact region_verdict_plain_ne_comment h
    · exact ih (region_verdict_plain_ne_comment h) hv

/-- A language with a line comment marker and a text delimiter has patterns, and on lines without a
newline a scan with them is a machine of three regions that looks at where the markers stand.  One line
read from a region, through the flags, is the machine's step; so are the lines of a file in turn, from
clear flags.  The flags are never both set, and that of a comment only if comments are stripped. -/
theorem classifyAll_by_places (lang : Language) (hcomment : lang.lineComment ≠ [])
    (hdelimiter : lang.textDelimiter ≠ []) :
    ∃ m, ofLanguage lang = .ok m ∧
      (∀ strip region line, '\n' ∉ line →
        m.classify strip region.flags line = (lang.verdict strip region line).reading) ∧
      ∀ strip lines, (∀ line ∈ lines, '\n' ∉ line) →
        m.classifyAll strip {} lines = (lang.verdicts strip .code lines).map Verdict.reading ∧
        m.verdicts strip .code lines = lang.verdicts strip .code lines ∧
        ∀ r ∈ m.classifyAll strip {} lines,
          ¬ (r.flags.inText = true ∧ r.flags.inComment = true) ∧
          (r.flags.inComment = true → strip = true) := by
  obtain ⟨m, hm⟩ : ∃ m, ofLanguage lang = .ok m :=
    ⟨_, ofLanguage_eq_ok_iff.mpr ⟨_, List.getLast?_eq_some_getLast hcomment, rfl⟩⟩
  refine ⟨m, hm, fun strip region line hline => ?_, fun strip lines hlines => ?_⟩
  · rw [classify_flags, verdict_eq hm hdelimiter hline]
  · have hplaces := verdicts_eq hm hdelimiter strip .code hlines
    have hclassify := m.classifyAll_flags strip .code lines
    refine ⟨hplaces ▸ hclassify, hplaces, fun r hr => ?_⟩
    obtain ⟨v, hv, rfl⟩ := List.mem_map.mp (hclassify ▸ hr)
    refine ⟨v.region.not_both_flags, fun hinside => ?_⟩
    cases strip with
    | true => rfl
    | false =>
      exact absurd (v.region.inComment_flags_iff.mp hinside)
        (m.region_ne_comment_of_mem_verdicts (by decide) hv)

/-- A comment behind code, a closer with one character behind it, a comment that its own slash closes, a
text block with an opener inside, and an opener that belongs to a line comment. -/
theorem classifyAll_by_places_java :
    ∃ m, ofLanguage Language.java = .ok m ∧
      (m.classifyAll true {} [
        "int a; /* b".toList, "*/\x7d".toList, "/*/".toList, "s = \"\"\"".toList,
        "/* c".toList, "\"\"\";".toList, "//* d".toList]).map (fun r => (r.counted, r.flags)) = [
        (true, { inComment := true }), (true, {}), (false, {}), (true, { inText := true }),
        (true, { inText := true }), (true, {}), (false, {})] := by
  obtain ⟨m, hm, -, hrun⟩ := classifyAll_by_places Language.java (by decide) (by decide)
  refine ⟨m, hm, ?_⟩
  rw [(hrun true _ (by decide)).1]
  decide +kernel

end Markers

end SourceCensus
