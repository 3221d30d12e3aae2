import Mathlib.Data.List.Induction
import SourceCensus.Language.Java
import SourceCensus.Line.Verdict

/-!
# Two scans side by side

The plain scan and the stripping one read the same lines, and a line goes into the enhanced count only when
both count it.  What a text block is, each of them decides alone.  As long as they agree on that, the
stripping scan only takes lines away; once they do not, one of them reads a string where the other one reads
code, and the two counts have little to do with each other.  So the question is which lines can set them
apart, and the answer is one kind only:

> the stripping scan is inside a block comment, and a text block starts in the line.

The plain scan does not know comments, so it enters the text block; the stripping scan stays out of it.

The invariant is `Abreast`: both regions are the same, but that the stripping scan may be inside a comment
where the plain one sees code.  Each of its three cases is kept by every line that is not of that kind
(`Abreast.verdict`) and ends at a line that is (`Abreast.apart`); runs follow by induction from the right.
Nothing here depends on what the markers are, nor on the lines being trimmed.
-/

set_option autoImplicit false

namespace SourceCensus

/-- The regions of the plain and of the stripping scan while they see the same text blocks. -/
inductive Abreast : Region → Region → Prop where
  | code : Abreast .code .code
  | text : Abreast .text .text
  | comment : Abreast .code .comment

namespace Abreast

variable {plain stripping : Region}

theorem iff_text (h : Abreast plain stripping) : plain = .text ↔ stripping = .text := by
  cases h <;> simp

theorem of_ne_text (h : stripping ≠ .text) : Abreast .code stripping := by
  cases stripping with
  | code => exact .code
  | text => exact absurd rfl h
  | comment => exact .comment

end Abreast

namespace Markers

variable (m : Markers)

/-- The stripping scan, in `region`, finds the opener of a block comment in the line. -/
def OpensComment (region : Region) (line : List Char) : Prop :=
  region = .code ∧ m.textStart.fits line = false ∧ (m.commentOpen.span? line).isSome = true

/-- Behind the lines both scans are inside a text block or neither is. -/
def InStep (lines : List (List Char)) : Prop :=
  m.regionAfter false .code lines = .text ↔ m.regionAfter true .code lines = .text

/-- Behind the lines before it the stripping scan is inside a block comment, and a text block starts in
the line. -/
def SetsApart (before : List (List Char)) (line : List Char) : Prop :=
  m.regionAfter true .code before = .comment ∧ m.textStart.fits line = true

/-! ## One line -/

theorem region_verdictInComment_ne_text (line : List Char) :
    (m.verdictInComment line).region ≠ .text := by
  unfold verdictInComment
  split <;> simp

theorem region_verdictAtOpener_ne_text (opener : Span) (line : List Char) :
    (m.verdictAtOpener opener line).region ≠ .text := by
  unfold verdictAtOpener
  split
  · simp
  · split <;> simp

theorem region_verdict_plain {line : List Char} (h : m.textStart.fits line = false) :
    (m.verdict false .code line).region = .code := by
  simp [verdict, h, verdictInCode]

theorem region_verdict_code_ne_text {line : List Char} (h : m.textStart.fits line = false) :
    (m.verdict true .code line).region ≠ .text := by
  simp only [verdict, h, Bool.false_eq_true, if_false, if_true]
  split
  · exact m.region_verdictAtOpener_ne_text _ line
  · simp [verdictInCode]

end Markers

namespace Abreast

variable {m : Markers} {plain stripping : Region} {line : List Char}

/-- A line that does not set the scans apart leaves them abreast. -/
theorem verdict (h : Abreast plain stripping)
    (hline : ¬ (stripping = .comment ∧ m.textStart.fits line = true)) :
    Abreast (m.verdict false plain line).region (m.verdict true stripping line).region := by
  cases h with
  | text =>
    simp only [Markers.verdict, Markers.verdictInText]
    split
    · exact .code
    · exact .text
  | code =>
    by_cases hstart : m.textStart.fits line = true
    · simp only [Markers.verdict, hstart, if_true, Markers.verdictAtDelimiter]
      exact .text
    · rw [Bool.not_eq_true] at hstart
      rw [m.region_verdict_plain hstart]
      exact .of_ne_text (m.region_verdict_code_ne_text hstart)
  | comment =>
    have hstart : m.textStart.fits line = false := by simpa using hline
    rw [m.region_verdict_plain hstart]
    exact .of_ne_text (m.region_verdictInComment_ne_text line)

/-- A line that sets the scans apart takes the plain one, and it alone, into a text block. -/
theorem apart (h : Abreast plain .comment) (hstart : m.textStart.fits line = true) :
    plain = .code ∧ (m.verdict false plain line).region = .text ∧
      (m.verdict true .comment line).region ≠ .text := by
  cases h with
  | comment =>
    refine ⟨rfl, ?_, m.region_verdictInComment_ne_text line⟩
    simp [Markers.verdict, hstart, Markers.verdictAtDelimiter]

/-- Outside block comments both scans count a line or neither does. -/
theorem counted (h : Abreast plain stripping) (hinside : stripping ≠ .comment)
    (hopens : ¬ m.OpensComment stripping line) :
    (m.verdict false plain line).counted = (m.verdict true stripping line).counted := by
  cases h with
  | text => rfl
  | comment => exact absurd rfl hinside
  | code =>
    by_cases hstart : m.textStart.fits line = true
    · simp [Markers.verdict, hstart]
    · rw [Bool.not_eq_true] at hstart
      have hnone : m.commentOpen.span? line = none := by
        cases hspan : m.commentOpen.span? line with
        | none => rfl
        | some opener => exact absurd ⟨rfl, hstart, by simp [hspan]⟩ hopens
      simp [Markers.verdict, hstart, hnone]

end Abreast

/-! ## All lines -/

namespace Markers

variable (m : Markers) {lines before : List (List Char)} {line : List Char}

theorem regionAfter_concat (strip : Bool) (region : Region) (before : List (List Char))
    (line : List Char) :
    m.regionAfter strip region (before ++ [line]) =
      (m.verdict strip (m.regionAfter strip region before) line).region := by
  rw [regionAfter_append]
  rfl

theorem abreast_of_not_setsApart
    (h : ∀ before line, before ++ [line] <+: lines → ¬ m.SetsApart before line) :
    Abreast (m.regionAfter false .code lines) (m.regionAfter true .code lines) := by
  induction lines using List.reverseRecOn with
  | nil => exact .code
  | append_singleton before line ih =>
    have hbefore := ih fun before' line' hpre =>
      h before' line' (hpre.trans (List.prefix_append before [line]))
    rw [regionAfter_concat, regionAfter_concat]
    exact hbefore.verdict (h before line List.prefix_rfl)

/-- Scans that have been in step behind every line so far were never set apart. -/
theorem not_setsApart_of_inStep (h : ∀ first, first <+: lines → m.InStep first)
    (hpre : before ++ [line] <+: lines) : ¬ m.SetsApart before line := by
  -- On the length of what comes before: were there a line that sets them apart, take the first.
  induction hlength : before.length using Nat.strongRecOn generalizing before line with
  | _ n ih =>
    rintro ⟨hcomment, hstart⟩
    have habreast : Abreast (m.regionAfter false .code before) (m.regionAfter true .code before) := by
      refine m.abreast_of_not_setsApart fun before' line' hpre' => ?_
      have hshorter : before'.length < n := by
        have hle := hpre'.length_le
        rw [List.length_append, List.length_singleton] at hle
        omega
      exact ih _ hshorter (hpre'.trans ((List.prefix_append _ _).trans hpre)) rfl
    rw [hcomment] at habreast
    obtain ⟨-, hplain, hstripping⟩ := habreast.apart hstart
    have hstep := h _ hpre
    rw [InStep, regionAfter_concat, regionAfter_concat, hcomment] at hstep
    exact hstripping (hstep.mp hplain)

/-- The first line behind which the scans disagree is one that sets them apart, and every such line does
so: the plain scan enters a text block in it and the stripping scan does not.  Before the first such line
the scans agree behind every line, and where the stripping scan is not inside a block comment and opens
none, both count a line or neither does. -/
theorem scans_in_step :
    (∀ before line, (∀ first, first <+: before → m.InStep first) →
      (¬ m.InStep (before ++ [line]) ↔ m.SetsApart before line) ∧
      (¬ m.InStep (before ++ [line]) →
        m.regionAfter false .code before = .code ∧
        m.regionAfter false .code (before ++ [line]) = .text ∧
        m.regionAfter true .code (before ++ [line]) ≠ .text)) ∧
    (∀ lines, (∀ before line, before ++ [line] <+: lines → ¬ m.SetsApart before line) →
      (∀ before, before <+: lines → m.InStep before) ∧
      ∀ before line, before ++ [line] <+: lines → m.regionAfter true .code before ≠ .comment →
        ¬ m.OpensComment (m.regionAfter true .code before) line →
        (m.verdict false (m.regionAfter false .code before) line).counted =
          (m.verdict true (m.regionAfter true .code before) line).counted) := by
  refine ⟨fun before line hagreed => ?_, fun lines hnever => ?_⟩
  · have habreast := m.abreast_of_not_setsApart fun _ _ => m.not_setsApart_of_inStep hagreed
    have happart : m.SetsApart before line →
        m.regionAfter false .code before = .code ∧
        m.regionAfter false .code (before ++ [line]) = .text ∧
        m.regionAfter true .code (before ++ [line]) ≠ .text := by
      rintro ⟨hcomment, hstart⟩
      rw [hcomment] at habreast
      rw [regionAfter_concat, regionAfter_concat, hcomment]
      exact habreast.apart hstart
    have hiff : ¬ m.InStep (before ++ [line]) ↔ m.SetsApart before line := by
      constructor
      · intro hdiffer
        by_contra hset
        rw [InStep, regionAfter_concat, regionAfter_concat] at hdiffer
        exact hdiffer (habreast.verdict hset).iff_text
      · intro hset hstep
        obtain ⟨-, hplain, hstripping⟩ := happart hset
        exact hstripping (hstep.mp hplain)
    exact ⟨hiff, fun hdiffer => happart (hiff.mp hdiffer)⟩
  · have habreast : ∀ before, before <+: lines →
        Abreast (m.regionAfter false .code before) (m.regionAfter true .code before) :=
      fun before hpre => m.abreast_of_not_setsApart fun before' line' hpre' =>
        hnever before' line' (hpre'.trans hpre)
    refine ⟨fun before hpre => (habreast before hpre).iff_text, ?_⟩
    intro before line hpre hinside hopens
    exact (habreast before ((List.prefix_append _ _).trans hpre)).counted hinside hopens

def java : Markers where
  lineComment := "//".toList
  textDelimiter := "\"\"\"".toList
  textStart := textStartPattern "//".toList "/*".toList "\"\"\"".toList
  commentOpen := commentOpenCapture "//".toList "/*".toList '/'
  commentClose := commentCloseCapture "*/".toList

theorem ofLanguage_java : ofLanguage Language.java = .ok java := rfl

/-- A comment that is left open in front of a text block delimiter sets the scans of a Java file apart. -/
theorem scans_in_step_java :
    (∀ first, first <+: ["/* note".toList] → java.InStep first) ∧
      ¬ java.InStep ["/* note".toList, "\"\"\"".toList] := by
  have hnever : ∀ before line, before ++ [line] <+: ["/* note".toList] →
      ¬ java.SetsApart before line := by
    rintro before line hpre ⟨-, hstart⟩
    have hline : line = "/* note".toList := by
      simpa using hpre.subset (List.mem_append_right before (List.mem_singleton_self line))
    rw [hline] at hstart
    exact absurd hstart (by decide +kernel)
  have hagreed := (java.scans_in_step.2 _ hnever).1
  refine ⟨hagreed, (java.scans_in_step.1 ["/* note".toList] "\"\"\"".toList hagreed).1.mpr ?_⟩
  exact ⟨by decide +kernel, by decide +kernel⟩

end Markers

end SourceCensus
