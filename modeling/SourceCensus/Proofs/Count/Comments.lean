import SourceCensus.Proofs.Count.Joining
import SourceCensus.Proofs.Line.Unmarked
import SourceCensus.Proofs.Text.Trimming

/-!
# Block comments do not count

A block comment of its own takes up one line or several.  The stripping scan meets its first line, its inner
lines and its last one in different regions, and leaves each of them out for a different reason: the opener is
at the start of the line, the scan is inside the comment, nothing stands behind the closer.  The plain scan
takes all of them for code and counts them; what matters is that no text block starts for it, so that it is
still in code behind the comment.  Then

> the enhanced count of a file is the same with the comment and without it,

wherever it stands in the code, between the parts of an accessor too (`enhanced_without_comment`).

One condition is easy to miss.  A closer that starts right behind the opener closes nothing, so `/**/` alone
is no comment here: all that follows it is.

Nor does it matter what a comment says.  A line inside one can be exchanged for any other that does not close
it either (`enhanced_inside_comment`).  This does not ask how the comment was opened, nor what the plain scan
sees there, which may take the line for code or for a part of a text block.
-/

set_option autoImplicit false

namespace SourceCensus

open Text (standsAt lastAt?)

namespace Language

variable {lang : Language} {line : List Char} {c : Nat}

/-- The line starts with the opener of a block comment, which stands nowhere else in it. -/
structure OpensOnlyAtStart (lang : Language) (line : List Char) : Prop where
  start : standsAt lang.blockOpen line 0 = true
  only : ∀ i ≤ line.length, standsAt lang.blockOpen line i = true → i = 0

instance (lang : Language) (line : List Char) : Decidable (lang.OpensOnlyAtStart line) :=
  decidable_of_iff (standsAt lang.blockOpen line 0 = true ∧
      ∀ i ≤ line.length, standsAt lang.blockOpen line i = true → i = 0)
    ⟨fun h => ⟨h.1, h.2⟩, fun h => ⟨h.start, h.only⟩⟩

/-- Trimmed lines that hold one block comment and nothing else. -/
inductive IsComment (lang : Language) : List (List Char) → Prop
  | single {line : List Char} {c : Nat} (hopen : lang.OpensOnlyAtStart line)
      (hclose : lastAt? lang.blockClose line = some c) (hend : c + lang.blockClose.length = line.length)
      (hglued : c ≠ lang.blockOpen.length) : IsComment lang [line]
  | several {first last : List Char} {inner : List (List Char)} (hopen : lang.OpensOnlyAtStart first)
      (hfirst : ¬ lang.blockClose <:+: first)
      (hinner : ∀ line ∈ inner, ¬ lang.blockClose <:+: line ∧ ¬ lang.textDelimiter <:+: line)
      (hlast : lang.blockClose <:+ last) (hdelimiter : ¬ lang.textDelimiter <:+: last) :
      IsComment lang (first :: (inner ++ [last]))

/-! ## Where a comment opens, and where a text block does not start -/

theorem OpensOnlyAtStart.lastOpener? (h : lang.OpensOnlyAtStart line) :
    lang.lastOpener? line = some 0 := by
  refine lang.lastOpener?_eq_some_iff.mpr ⟨Nat.zero_le _, ?_, fun i hi hle => ?_⟩
  · rw [opensCommentAt, h.start]
    rfl
  · rw [opensCommentAt, Bool.and_eq_false_iff]
    left
    rw [Bool.eq_false_iff]
    intro hstands
    exact Nat.ne_of_gt hi (h.only i hle hstands)

theorem startsText_of_not_isInfix (h : ¬ lang.textDelimiter <:+: line) :
    lang.startsText line = false := by
  rw [Bool.eq_false_iff]
  intro hstarts
  obtain ⟨k, -, hstands, -⟩ := (lang.startsText_iff line).mp hstarts
  exact h (Text.isInfix_of_standsAt hstands)

/-- In a line that starts with the opener of a comment, no Java text block does. -/
theorem startsText_java_of_opener (h : standsAt java.blockOpen line 0 = true) :
    java.startsText line = false := by
  rw [Bool.eq_false_iff]
  intro hstarts
  obtain ⟨k, -, hstands, hbefore⟩ := (java.startsText_iff line).mp hstarts
  cases k with
  | succ k =>
    rw [(hbefore 0 (Nat.succ_pos k)).2] at h
    cases h
  | zero =>
    -- Both stand at the start, and they begin with different characters.
    obtain ⟨rest, rfl⟩ := List.isPrefixOf_iff_prefix.mp h
    cases hstands

/-! ## The verdicts -/

theorem region_verdict_plain (h : lang.startsText line = false) :
    (lang.verdict false .code line).region = .code := by
  simp [verdict, h, verdictInCode]

theorem verdict_opened_closed (hstarts : lang.startsText line = false)
    (hopen : lang.lastOpener? line = some 0) (hclose : lastAt? lang.blockClose line = some c)
    (hend : c + lang.blockClose.length = line.length) (hglued : c ≠ lang.blockOpen.length) :
    lang.verdict true .code line = { counted := false, inText := false, region := .code } := by
  simp [verdict, hstarts, hopen, verdictAtOpener, hclose, hend, hglued]

theorem verdict_opened (hstarts : lang.startsText line = false)
    (hopen : lang.lastOpener? line = some 0) (hclose : lastAt? lang.blockClose line = none) :
    lang.verdict true .code line = { counted := false, inText := false, region := .comment } := by
  simp [verdict, hstarts, hopen, verdictAtOpener, hclose]

theorem verdict_closed (hclose : lastAt? lang.blockClose line = some c)
    (hend : c + lang.blockClose.length = line.length) :
    lang.verdict true .comment line = { counted := false, inText := false, region := .code } := by
  simp [verdict, verdictInComment, hclose, hend]

end Language

/-! ## The lines of a comment -/

namespace Survey

theorem Unnoticed.of_verdict_java {raw : List Char} {q q' : Region} {inText : Bool}
    (hline : '\n' ∉ Text.trim raw) (hstarts : Language.java.startsText (Text.trim raw) = false)
    (hverdict : Language.java.verdict true q (Text.trim raw) =
      { counted := false, inText := inText, region := q' }) :
    Unnoticed .java .code q q' [raw] := by
  have hplaces : ∀ strip region, Markers.java.verdict strip region (Text.trim raw) =
      Language.java.verdict strip region (Text.trim raw) :=
    fun strip region => Markers.verdict_eq Markers.ofLanguage_java (by decide) hline strip region
  refine .line ?_ ?_ ?_
  · rw [hplaces]
    exact Language.region_verdict_plain hstarts
  · rw [hplaces, hverdict]
  · rw [hplaces, hverdict]

/-- A line inside a comment that does not close it goes unnoticed, whether the plain scan is in code or in a
text block there. -/
theorem unnoticed_inside {m : Markers} {lang : Language} {p : Region} {raw : List Char}
    (hm : Markers.ofLanguage lang = .ok m) (hp : p ≠ .comment)
    (hclose : ¬ lang.blockClose <:+: Text.trim raw) (hdelimiter : ¬ lang.textDelimiter <:+: Text.trim raw) :
    Unnoticed m p .comment .comment [raw] := by
  have hinside : m.verdict true .comment (Text.trim raw) =
      { counted := false, inText := false, region := .comment } :=
    Markers.verdict_comment_of_not_isInfix hm hclose
  refine .line (Markers.region_verdict_plain_of_not_isInfix hm hp hdelimiter) ?_ ?_
  · rw [hinside]
  · rw [hinside]

/-- Neither scan comes out of a comment in another place than it went in, and no line of it counts. -/
theorem unnoticed_comment {comment : List (List Char)} (h : Language.java.IsComment (comment.map Text.trim))
    (hlines : ∀ raw ∈ comment, '\n' ∉ Text.trim raw) : Unnoticed .java .code .code .code comment := by
  generalize htrimmed : comment.map Text.trim = trimmed at h
  cases h with
  | single hopen hclose hend hglued =>
    obtain ⟨raw, rfl, rfl⟩ := List.map_eq_singleton_iff.mp htrimmed
    have hstarts := Language.startsText_java_of_opener hopen.start
    exact .of_verdict_java (hlines raw (List.mem_singleton_self raw)) hstarts
      (Language.verdict_opened_closed hstarts hopen.lastOpener? hclose hend hglued)
  | several hopen hfirst hinner hlast hdelimiter =>
    obtain ⟨raw, behind, rfl, rfl, hbehind⟩ := List.map_eq_cons_iff.mp htrimmed
    obtain ⟨inner, ends, rfl, rfl, hends⟩ := List.map_eq_append_iff.mp hbehind
    obtain ⟨raw', rfl, rfl⟩ := List.map_eq_singleton_iff.mp hends
    simp only [List.forall_mem_cons, List.forall_mem_append] at hlines
    have hstarts := Language.startsText_java_of_opener hopen.start
    have hheads : Unnoticed .java .code .code .comment [raw] :=
      .of_verdict_java hlines.1 hstarts
        (Language.verdict_opened hstarts hopen.lastOpener? (Text.lastAt?_eq_none hfirst))
    have hinside : Unnoticed .java .code .comment .comment inner := by
      refine .all fun other hother => ?_
      obtain ⟨hclose, hdelimiter⟩ := hinner _ (List.mem_map_of_mem hother)
      exact unnoticed_inside Markers.ofLanguage_java (by decide) hclose hdelimiter
    have htails : Unnoticed .java .code .comment .code [raw'] := by
      obtain ⟨front, hfront⟩ := hlast
      have hclose := Text.lastAt?_append front Language.java.blockClose
      rw [hfront] at hclose
      refine .of_verdict_java hlines.2.2.1 (Language.startsText_of_not_isInfix hdelimiter)
        (Language.verdict_closed hclose ?_)
      rw [← hfront, List.length_append]
    exact hheads.append (hinside.append htails)

end Survey

/-! ## The count -/

/-- Where both scans are in code, the lines of a block comment can be taken out of a Java file without a
change to its enhanced count, with accessors and without them. -/
theorem enhanced_without_comment {xs comment ys : List (List Char)}
    (hplain : Markers.java.regionAfter false .code (xs.map Text.trim) = .code)
    (hstripping : Markers.java.regionAfter true .code (xs.map Text.trim) = .code)
    (hcomment : Language.java.IsComment (comment.map Text.trim))
    (hlines : ∀ raw ∈ comment, '\n' ∉ Text.trim raw) (dropAccessors : Bool) :
    ∃ n, countLines .java .enhanced dropAccessors (xs ++ comment ++ ys) = .ok n ∧
      countLines .java .enhanced dropAccessors (xs ++ ys) = .ok n := by
  have hunnoticed := Survey.unnoticed_comment hcomment hlines
  refine ⟨_, ?_, countLines_java .enhanced dropAccessors (xs ++ ys)⟩
  rw [countLines_java]
  refine congrArg Except.ok (Survey.enhanced_without ?_ dropAccessors)
  rw [hplain, hstripping]
  exact hunnoticed

/-- A comment of three lines between the parts of a getter. -/
theorem enhanced_without_comment_getter :
    let xs := ["int getX() \x7b"].map String.toList
    let comment := ["/* \"\"\" why", "", "  // so */"].map String.toList
    let ys := ["return x;", "\x7d", "int y;"].map String.toList
    Markers.java.regionAfter false .code (xs.map Text.trim) = .code ∧
      Markers.java.regionAfter true .code (xs.map Text.trim) = .code ∧
      Language.java.IsComment (comment.map Text.trim) ∧ (∀ raw ∈ comment, '\n' ∉ Text.trim raw) ∧
      ∃ n, countLines .java .enhanced true (xs ++ comment ++ ys) = .ok n ∧
        countLines .java .enhanced true (xs ++ ys) = .ok n := by
  intro xs comment ys
  have hplain : Markers.java.regionAfter false .code (xs.map Text.trim) = .code := by decide +kernel
  have hstripping : Markers.java.regionAfter true .code (xs.map Text.trim) = .code := by decide +kernel
  have hlines : ∀ raw ∈ comment, '\n' ∉ Text.trim raw := by decide +kernel
  have htrimmed : comment.map Text.trim =
      "/* \"\"\" why".toList :: ([[]] ++ ["// so */".toList]) := by decide +kernel
  have hcomment : Language.java.IsComment (comment.map Text.trim) := by
    rw [htrimmed]
    exact .several (by decide +kernel) (by decide +kernel) (by decide +kernel) (by decide +kernel)
      (by decide +kernel)
  exact ⟨hplain, hstripping, hcomment, hlines,
    enhanced_without_comment hplain hstripping hcomment hlines true⟩

/-! ## The text of a comment -/

/-- Two Java files that differ in one line only, at which the stripping scan is inside a comment, have the
same enhanced count, with accessors and without them, if neither line holds the closer or the delimiter of a
text block. -/
theorem enhanced_inside_comment {xs ys : List (List Char)} {raw raw' : List Char}
    (hinside : Markers.java.regionAfter true .code (xs.map Text.trim) = .comment)
    (hraw : ¬ Language.java.blockClose <:+: raw ∧ ¬ Language.java.textDelimiter <:+: raw)
    (hraw' : ¬ Language.java.blockClose <:+: raw' ∧ ¬ Language.java.textDelimiter <:+: raw')
    (dropAccessors : Bool) :
    ∃ n, countLines .java .enhanced dropAccessors (xs ++ raw :: ys) = .ok n ∧
      countLines .java .enhanced dropAccessors (xs ++ raw' :: ys) = .ok n := by
  have hplain : Markers.java.regionAfter false .code (xs.map Text.trim) ≠ .comment :=
    Markers.regionAfter_plain_ne_comment (by decide) _
  -- Each file counts as much as the one without the line.
  have hwithout (line : List Char) (hclose : ¬ Language.java.blockClose <:+: line)
      (hdelimiter : ¬ Language.java.textDelimiter <:+: line) :
      countLines .java .enhanced dropAccessors (xs ++ line :: ys) =
        countLines .java .enhanced dropAccessors (xs ++ ys) := by
    rw [countLines_java, countLines_java, ← List.singleton_append, ← List.append_assoc]
    refine congrArg Except.ok (Survey.enhanced_without ?_ dropAccessors)
    rw [hinside]
    exact Survey.unnoticed_inside Markers.ofLanguage_java hplain
      (fun h => hclose (h.trans (Text.trim_isInfix line)))
      (fun h => hdelimiter (h.trans (Text.trim_isInfix line)))
  refine ⟨_, countLines_java .enhanced dropAccessors (xs ++ raw :: ys), ?_⟩
  rw [hwithout raw' hraw'.1 hraw'.2, ← hwithout raw hraw.1 hraw.2, countLines_java]

/-- A line of a comment behind code that is never closed, with the plain scan inside a text block. -/
theorem enhanced_inside_comment_open :
    let xs := ["int getX() \x7b /* why", "\"\"\""].map String.toList
    let raw := "return x; // /*".toList
    let raw' := " \x7d ".toList
    let ys := ["return x;", "\x7d"].map String.toList
    Markers.java.regionAfter true .code (xs.map Text.trim) = .comment ∧
      Markers.java.regionAfter false .code (xs.map Text.trim) = .text ∧
      (¬ Language.java.blockClose <:+: raw ∧ ¬ Language.java.textDelimiter <:+: raw) ∧
      (¬ Language.java.blockClose <:+: raw' ∧ ¬ Language.java.textDelimiter <:+: raw') ∧
      ∃ n, countLines .java .enhanced true (xs ++ raw :: ys) = .ok n ∧
        countLines .java .enhanced true (xs ++ raw' :: ys) = .ok n := by
  intro xs raw raw' ys
  have hinside : Markers.java.regionAfter true .code (xs.map Text.trim) = .comment := by decide +kernel
  have hplain : Markers.java.regionAfter false .code (xs.map Text.trim) = .text := by decide +kernel
  have hraw : ¬ Language.java.blockClose <:+: raw ∧ ¬ Language.java.textDelimiter <:+: raw := by
    decide +kernel
  have hraw' : ¬ Language.java.blockClose <:+: raw' ∧ ¬ Language.java.textDelimiter <:+: raw' := by
    decide +kernel
  exact ⟨hinside, hplain, hraw, hraw', enhanced_inside_comment hinside hraw hraw' true⟩

end SourceCensus
