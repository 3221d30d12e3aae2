import SourceCensus.Proofs.Count.Joining
import SourceCensus.Proofs.Line.Unmarked
import SourceCensus.Proofs.Text.Trimming

/-!
# Text blocks count line by line

Inside a text block nothing is looked for but its delimiter.  An inner line may read like a comment, like the
end of one or like a getter; it is a line of a string and counts as one.  Both scans enter the block in its
first line and leave it in its last, and they agree on every line between.  So

> with a text block a file counts as many lines more as the block has,

in all three counts (`countLines_with_text`).  For the count without accessors this says two things: no line
of the block is taken for a part of an accessor, and the accessors around it are found as they were, also one
that the block stands in the middle of.

`TextLines` is the invariant of both scans along the block.  What makes lines a text block is said of the
lines as they are; that trimming a line does not hide its delimiter, nor move it behind a comment, is
`startsText_trim`.
-/

set_option autoImplicit false

namespace SourceCensus

open Text (standsAt)

namespace Language

variable {lang : Language} {raw : List Char}

/-- Lines that hold one text block: in the first one it starts, in front of any comment, and the delimiter
occurs again in the last one and in none between, of which none is blank. -/
inductive IsTextBlock (lang : Language) : List (List Char) → Prop
  | intro {opening closing : List Char} {inner : List (List Char)}
      (hopening : lang.startsText opening = true)
      (hinner : ∀ line ∈ inner, Text.trim line ≠ [] ∧ ¬ lang.textDelimiter <:+: line)
      (hclosing : lang.textDelimiter <:+: closing) : IsTextBlock lang (opening :: (inner ++ [closing]))

/-- Where a text block starts in a line, it starts in the trimmed line. -/
theorem startsText_trim (hne : lang.textDelimiter ≠ [])
    (hsolid : ∀ c ∈ lang.textDelimiter, Text.isBlank c = false) (h : lang.startsText raw = true) :
    lang.startsText (Text.trim raw) = true := by
  obtain ⟨k, hk, hstands, hbefore⟩ := (lang.startsText_iff raw).mp h
  obtain ⟨a, b, rfl, rfl⟩ := Text.exists_append_of_standsAt hk hstands
  -- Trimming takes `lead` off the front, and the rest of `a` stays in front of the delimiter.
  obtain ⟨lead, hlead⟩ : Text.trimStart a <:+ a := List.dropWhile_suffix Text.isBlank
  have htrim : lead ++ Text.trim (a ++ lang.textDelimiter ++ b) <+: a ++ lang.textDelimiter ++ b := by
    obtain ⟨behind, hbehind⟩ := Text.trimEnd_isPrefix b
    refine ⟨behind, ?_⟩
    rw [Text.trim_around hne hsolid]
    conv_rhs => rw [← hlead, ← hbehind]
    simp only [List.append_assoc]
  have hmoved {marker : List Char} {j : Nat}
      (hmarker : standsAt marker (Text.trim (a ++ lang.textDelimiter ++ b)) j = true) :
      standsAt marker (a ++ lang.textDelimiter ++ b) (lead.length + j) = true := by
    refine Text.standsAt_of_prefix htrim ?_
    rw [Text.standsAt_append_left]
    exact hmarker
  have hlength : a.length = lead.length + (Text.trimStart a).length := by
    rw [← List.length_append, hlead]
  refine (lang.startsText_iff _).mpr ⟨(Text.trimStart a).length, ?_, ?_, fun j hj => ?_⟩
  · rw [Text.trim_around hne hsolid, List.append_assoc, List.length_append]
    exact Nat.le_add_right _ _
  · rw [Text.trim_around hne hsolid, List.append_assoc, ← Nat.add_zero (List.length _),
      Text.standsAt_append_left]
    exact List.isPrefixOf_iff_prefix.mpr (List.prefix_append _ _)
  · obtain ⟨hcomment, hopen⟩ := hbefore (lead.length + j) (by omega)
    rw [Bool.eq_false_iff] at hcomment hopen ⊢
    rw [Bool.eq_false_iff]
    exact ⟨fun hstands' => hcomment (hmoved hstands'), fun hstands' => hopen (hmoved hstands')⟩

end Language

namespace Survey

variable {m : Markers} {lang : Language} {r r' r'' : Region} {xs ys : List (List Char)}

/-- With both scans in `r` in front of the lines, both count each of them, the stripping one as part of a
text block, and behind them both are in `r'`. -/
structure TextLines (m : Markers) (r r' : Region) (lines : List (List Char)) : Prop where
  counted : ∀ e ∈ ofLinesFrom m r r lines,
    e.plain.counted = true ∧ e.stripping.counted = true ∧ e.stripping.inText = true
  region : ∀ strip, m.regionAfter strip r (lines.map Text.trim) = r'

namespace TextLines

/-! ## The lines of a text block -/

theorem line {raw : List Char} (h : ∀ strip, m.verdict strip r (Text.trim raw) =
    { counted := true, inText := true, region := r' }) : TextLines m r r' [raw] where
  counted := by
    simp only [ofLinesFrom, h, List.forall_mem_singleton, and_self]
  region strip := by
    simp only [List.map_singleton, Markers.regionAfter, h]

theorem append (h : TextLines m r r' xs) (h' : TextLines m r' r'' ys) : TextLines m r r'' (xs ++ ys) where
  counted := by
    rw [ofLinesFrom_append, h.region, h.region, List.forall_mem_append]
    exact ⟨h.counted, h'.counted⟩
  region strip := by rw [List.map_append, Markers.regionAfter_append, h.region, h'.region]

theorem all (h : ∀ raw ∈ xs, TextLines m r r [raw]) : TextLines m r r xs := by
  induction xs with
  | nil => exact ⟨by simp [ofLinesFrom], fun _ => rfl⟩
  | cons raw xs ih =>
    rw [List.forall_mem_cons] at h
    exact h.1.append (ih h.2)

theorem opening {raw : List Char} (hm : Markers.ofLanguage lang = .ok m) (hne : lang.textDelimiter ≠ [])
    (hline : '\n' ∉ Text.trim raw) (hstarts : lang.startsText (Text.trim raw) = true) :
    TextLines m .code .text [raw] := by
  refine .line fun strip => ?_
  rw [Markers.verdict_eq hm hne hline, Language.verdict, hstarts]
  rfl

theorem inside {raw : List Char} (hm : Markers.ofLanguage lang = .ok m) (hraw : Text.trim raw ≠ [])
    (hdelimiter : ¬ lang.textDelimiter <:+: Text.trim raw) : TextLines m .text .text [raw] := by
  have hends := Markers.hasDelimiter_eq_false hm hdelimiter
  refine .line fun strip => ?_
  simp [Markers.verdict, Markers.verdictInText, hends, hraw]

theorem closing {raw : List Char} (hm : Markers.ofLanguage lang = .ok m) (hne : lang.textDelimiter ≠ [])
    (hdelimiter : lang.textDelimiter <:+: Text.trim raw) : TextLines m .text .code [raw] := by
  have hends : m.hasDelimiter (Text.trim raw) = true := (Markers.hasDelimiter_iff hm).mpr hdelimiter
  have hraw : Text.trim raw ≠ [] := by
    intro hempty
    rw [hempty, List.infix_nil] at hdelimiter
    exact hne hdelimiter
  refine .line fun strip => ?_
  simp [Markers.verdict, Markers.verdictInText, hends, hraw]

/-- Both scans go through a text block side by side. -/
theorem of_isTextBlock {block : List (List Char)} (hm : Markers.ofLanguage lang = .ok m)
    (hne : lang.textDelimiter ≠ []) (hsolid : ∀ c ∈ lang.textDelimiter, Text.isBlank c = false)
    (hblock : lang.IsTextBlock block) (hlines : ∀ raw ∈ block, '\n' ∉ Text.trim raw) :
    TextLines m .code .code block := by
  cases hblock with
  | intro hopening hinner hclosing =>
    rw [List.forall_mem_cons] at hlines
    have hstarts := Language.startsText_trim hne hsolid hopening
    have hinside : TextLines m .text .text _ := .all fun raw hraw =>
      .inside hm (hinner raw hraw).1 fun h => (hinner raw hraw).2 ((Text.isInfix_trim_iff hne hsolid).mp h)
    have hends := (Text.isInfix_trim_iff hne hsolid).mpr hclosing
    exact (opening hm hne hlines.1 hstarts).append (hinside.append (closing hm hne hends))

/-! ## What they add to the counts -/

variable {block : List (List Char)}

theorem baseline_eq (h : TextLines m r r' block) : (ofLinesFrom m r r block).baseline = block.length := by
  rw [baseline, List.countP_eq_length.mpr fun e he => (h.counted e he).1, length_ofLinesFrom]

theorem shared_eq (h : TextLines m r r' block) : (ofLinesFrom m r r block).shared = block.length := by
  have hboth : ∀ e ∈ ofLinesFrom m r r block, e.shared = true := by
    intro e he
    obtain ⟨hplain, hstripping, -⟩ := h.counted e he
    rw [Surveyed.shared, hplain, hstripping, Bool.and_self]
  rw [shared, List.countP_eq_length.mpr hboth, length_ofLinesFrom]

/-- No line of a text block can be part of an accessor. -/
theorem filter_sharedLines (h : TextLines m r r' block) :
    (ofLinesFrom m r r block).sharedLines.filter (·.2) = [] := by
  rw [sharedLines, List.filter_eq_nil_iff, List.forall_mem_map]
  intro e he
  obtain ⟨-, -, htext⟩ := h.counted e (List.mem_of_mem_filter he)
  simp [Surveyed.isCandidate, htext]

end TextLines

theorem baseline_with_text {block : List (List Char)}
    (hplain : m.regionAfter false .code (xs.map Text.trim) = r)
    (hstripping : m.regionAfter true .code (xs.map Text.trim) = r) (h : TextLines m r r block) :
    (ofLines m (xs ++ block ++ ys)).baseline = (ofLines m (xs ++ ys)).baseline + block.length := by
  have hblock := h.baseline_eq
  simp only [baseline, ofLines, List.append_assoc, ofLinesFrom_append, hplain, hstripping, h.region,
    List.countP_append] at hblock ⊢
  omega

theorem enhanced_with_text {block : List (List Char)}
    (hplain : m.regionAfter false .code (xs.map Text.trim) = r)
    (hstripping : m.regionAfter true .code (xs.map Text.trim) = r) (h : TextLines m r r block)
    (dropAccessors : Bool) :
    (ofLines m (xs ++ block ++ ys)).enhanced lang dropAccessors =
      (ofLines m (xs ++ ys)).enhanced lang dropAccessors + block.length := by
  have hblock := h.shared_eq
  refine enhanced_eq_add ?_ ?_ dropAccessors
  · simp only [shared, ofLines, List.append_assoc, ofLinesFrom_append, hplain, hstripping, h.region,
      List.countP_append] at hblock ⊢
    omega
  · simp only [candidates, map_candidatesFrom, ofLines, List.append_assoc, ofLinesFrom_append, hplain,
      hstripping, h.region, sharedLines_append, List.filter_append, h.filter_sharedLines,
      List.nil_append]

end Survey

/-! ## The count -/

/-- Where both scans are in code, a text block adds its number of lines to each count of a Java file. -/
theorem countLines_with_text {xs block ys : List (List Char)}
    (hplain : Markers.java.regionAfter false .code (xs.map Text.trim) = .code)
    (hstripping : Markers.java.regionAfter true .code (xs.map Text.trim) = .code)
    (hblock : Language.java.IsTextBlock block) (hlines : ∀ raw ∈ block, '\n' ∉ Text.trim raw)
    (mode : CountMode) (dropAccessors : Bool) :
    ∃ n, countLines .java mode dropAccessors (xs ++ ys) = .ok n ∧
      countLines .java mode dropAccessors (xs ++ block ++ ys) = .ok (n + block.length) := by
  have hsolid : ∀ c ∈ Language.java.textDelimiter, Text.isBlank c = false := by
    simp [Language.java, Text.isBlank]
  have htext : Survey.TextLines .java .code .code block :=
    .of_isTextBlock Markers.ofLanguage_java (by decide) hsolid hblock hlines
  refine ⟨_, countLines_java mode dropAccessors (xs ++ ys), ?_⟩
  rw [countLines_java]
  cases mode with
  | baseline => exact congrArg Except.ok (Survey.baseline_with_text hplain hstripping htext)
  | enhanced =>
    exact congrArg Except.ok (Survey.enhanced_with_text hplain hstripping htext dropAccessors)

/-- A text block in the middle of a getter, with a comment, the end of one and a setter in it. -/
theorem countLines_with_text_getter :
    let xs := ["String getX() \x7b"].map String.toList
    let block := ["  log(\"\"\"", "/* // why", "*/ void setY(int y) \x7b z = y; \x7d", "  \"\"\"); // so"].map
      String.toList
    let ys := ["return x;", "\x7d"].map String.toList
    Markers.java.regionAfter false .code (xs.map Text.trim) = .code ∧
      Markers.java.regionAfter true .code (xs.map Text.trim) = .code ∧
      Language.java.IsTextBlock block ∧ (∀ raw ∈ block, '\n' ∉ Text.trim raw) ∧
      countLines .java .enhanced true (xs ++ ys) = .ok 0 ∧
      countLines .java .enhanced true (xs ++ block ++ ys) = .ok 4 := by
  intro xs block ys
  have hplain : Markers.java.regionAfter false .code (xs.map Text.trim) = .code := by decide +kernel
  have hstripping : Markers.java.regionAfter true .code (xs.map Text.trim) = .code := by decide +kernel
  have hlines : ∀ raw ∈ block, '\n' ∉ Text.trim raw := by decide +kernel
  have hshape : block = "  log(\"\"\"".toList ::
      (["/* // why", "*/ void setY(int y) \x7b z = y; \x7d"].map String.toList ++
        ["  \"\"\"); // so".toList]) := by decide +kernel
  have hblock : Language.java.IsTextBlock block := by
    rw [hshape]
    exact .intro (by decide +kernel) (by decide +kernel) (by decide +kernel)
  have hwithout : countLines .java .enhanced true (xs ++ ys) = .ok 0 := by decide +kernel
  obtain ⟨n, hn, hwith⟩ : ∃ n, countLines .java .enhanced true (xs ++ ys) = .ok n ∧
      countLines .java .enhanced true (xs ++ block ++ ys) = .ok (n + block.length) :=
    countLines_with_text hplain hstripping hblock hlines .enhanced true
  obtain rfl : 0 = n := Except.ok.inj (hwithout.symm.trans hn)
  exact ⟨hplain, hstripping, hblock, hlines, hwithout, hwith⟩

end SourceCensus
