import SourceCensus.Proofs.Accessor.OneLine
import SourceCensus.Proofs.Count.Concatenation
import SourceCensus.Proofs.Line.Unmarked

/-!
# Counts around an accessor

Whether an accessor is written on one line or on three should make no difference to the count that leaves
accessors out.  Three things could: a scan that is somewhere else behind the one than behind the other, an
accessor around it that is found in the one file only, and the number of lines.  None does.

* In code, a line of an accessor is read as code by both scans, and they are in code behind it
  (`Markers.verdict_of_isCodeLine`).
* Where an accessor stands there is no room for another one, so around it the same ones are found as without
  it (`Accessor.windows_around`).
* All its lines are left out, however many they are.

Hence

> an accessor in code adds nothing to the count, and that is the sum of the counts of what stands in front
> of it and behind it (`enhanced_around`, `countLines_around`).
-/

set_option autoImplicit false

namespace SourceCensus

open Accessor (IsCodeLine StandsAtFront)

/-! ## Lines of code -/

namespace Markers

variable {line : List Char}

/-- In code, both scans count a line that can only be code, and stay there. -/
theorem verdict_of_isCodeLine (h : IsCodeLine line) (strip : Bool) :
    java.verdict strip .code line = { counted := true, inText := false, region := .code } := by
  have hdelimiter : ¬ Language.java.textDelimiter <:+: line := fun hoccurs =>
    h.no_quote (hoccurs.subset (by decide))
  have hopen : ¬ Language.java.blockOpen <:+: line := fun hoccurs => h.no_slash (hoccurs.subset (by decide))
  have hcomment : java.isLineComment line = false := Bool.eq_false_iff.mpr fun hstands =>
    h.no_slash ((List.isPrefixOf_iff_prefix.mp hstands).subset (by decide))
  have hstarts : java.textStart.fits line = false :=
    fits_textStart_of_not_isInfix ofLanguage_java hdelimiter
  have hopener : java.commentOpen.span? line = none := Capture.span?_eq_none hopen
  have hsolid : line.isEmpty = false := List.isEmpty_eq_false_iff.mpr h.ne_nil
  cases strip <;> simp [verdict, verdictInCode, hstarts, hopener, hcomment, hsolid]

end Markers

namespace Survey

variable {lang : Language}

theorem ofLinesFrom_of_isCodeLine {lines : List (List Char)}
    (h : ∀ raw ∈ lines, IsCodeLine (Text.trim raw)) :
    (∀ e ∈ ofLinesFrom .java .code .code lines, e.isCandidate = true) ∧
      (ofLinesFrom .java .code .code lines).map (·.line) = lines.map Text.trim ∧
      ∀ strip, Markers.java.regionAfter strip .code (lines.map Text.trim) = .code := by
  induction lines with
  | nil => exact ⟨fun _ he => absurd he List.not_mem_nil, rfl, fun _ => rfl⟩
  | cons raw lines ih =>
    rw [List.forall_mem_cons] at h
    obtain ⟨hcandidates, hlines, hregion⟩ := ih h.2
    have hverdict := Markers.verdict_of_isCodeLine h.1
    simp only [ofLinesFrom, List.map_cons, Markers.regionAfter, hverdict]
    exact ⟨List.forall_mem_cons.mpr ⟨rfl, hcandidates⟩, congrArg _ hlines, hregion⟩

/-! ## The count around an accessor -/

theorem candidatesFrom_of_all {part : Survey} (h : ∀ e ∈ part, e.isCandidate = true) (start : Nat) :
    (candidatesFrom start part).map (·.2) = part.map (·.line) := by
  induction part generalizing start with
  | nil => rfl
  | cons e part ih =>
    rw [List.forall_mem_cons] at h
    rw [candidatesFrom, if_pos h.1, List.map_cons, List.map_cons, ih h.2]

theorem shared_of_all {part : Survey} (h : ∀ e ∈ part, e.isCandidate = true) : part.shared = part.length := by
  refine List.countP_eq_length.mpr fun e he => ?_
  have hcandidate := h e he
  rw [Surveyed.isCandidate, Bool.and_eq_true] at hcandidate
  exact hcandidate.1

/-- What stands around an accessor is counted as if the accessor were not there and the two sides were files
of their own. -/
theorem enhanced_around (hkinds : Accessor.Unmistakable lang.accessorShapes lang.accessorClose)
    {part : Survey} (hpart : ∀ e ∈ part, e.isCandidate = true)
    (hstands : StandsAtFront lang.accessorShapes lang.accessorClose (part.map (·.line)) part.length)
    (front behind : Survey) :
    (front ++ (part ++ behind)).enhanced lang true =
      front.enhanced lang true + behind.enhanced lang true := by
  have hwindow (start : Nat) : (candidatesFrom start part).map (·.2) = part.map (·.line) :=
    candidatesFrom_of_all hpart start
  have hlength (start : Nat) : (candidatesFrom start part).length = part.length := by
    rw [← List.length_map (·.2), hwindow, List.length_map]
  have hlines : ((front ++ (part ++ behind)).accessorLines lang).length =
      (front.accessorLines lang).length + part.length + (behind.accessorLines lang).length := by
    rw [← hwindow front.length, ← hlength front.length] at hstands
    rw [← length_flatten_windows 0, candidatesFrom_append, candidatesFrom_append, Nat.zero_add,
      Accessor.windows_around hkinds hstands, List.flatten_append, List.flatten_cons, List.length_append,
      List.length_append, length_flatten_windows, length_flatten_windows, hlength, Nat.add_assoc]
  -- None of the three differences is cut off at zero.
  have hle : (front.accessorLines lang).length ≤ front.shared := front.length_accessorLines_le
  have hle' : (behind.accessorLines lang).length ≤ behind.shared := behind.length_accessorLines_le
  simp only [enhanced, if_true, shared_append, hlines, shared_of_all hpart]
  omega

end Survey

/-- An accessor in code, with blanks around its lines or without, adds nothing to the count that leaves
accessors out. -/
theorem countLines_around {xs part lines : List (List Char)}
    (hplain : Markers.java.regionAfter false .code (xs.map Text.trim) = .code)
    (hstripping : Markers.java.regionAfter true .code (xs.map Text.trim) = .code)
    (hlines : ∀ line ∈ lines, '\n' ∉ line)
    (hstands : StandsAtFront Language.java.accessorShapes Language.java.accessorClose lines lines.length)
    (hpart : part.map Text.trim = lines.map Text.trim) (ys : List (List Char)) :
    countLines .java .enhanced true (xs ++ (part ++ ys)) =
      .ok ((Survey.ofLines .java xs).enhanced .java true + (Survey.ofLines .java ys).enhanced .java true) := by
  have hcode : ∀ line ∈ lines, IsCodeLine line := Accessor.isCodeLine_of_stands_java hlines hstands
  have htrimmed : part.map Text.trim = lines := by
    rw [hpart, List.map_congr_left fun line hline => (hcode line hline).trim_eq, List.map_id']
  rw [← htrimmed, List.forall_mem_map] at hcode
  obtain ⟨hcandidates, hsurveyed, hregion⟩ := Survey.ofLinesFrom_of_isCodeLine hcode
  have hsurvey : Survey.ofLines .java (xs ++ (part ++ ys)) =
      Survey.ofLines .java xs ++ (Survey.ofLines .java part ++ Survey.ofLines .java ys) := by
    simp only [Survey.ofLines, Survey.ofLinesFrom_append, hplain, hstripping, hregion]
  rw [countLines_java, hsurvey]
  refine congrArg Except.ok (Survey.enhanced_around Accessor.unmistakable_java hcandidates ?_ _ _)
  have hlength : lines.length = part.length := by rw [← htrimmed, List.length_map]
  rwa [hsurveyed, Survey.length_ofLinesFrom, htrimmed, ← hlength]

/-- A line is a Java accessor by itself exactly if it is a signature, a body and a closing brace with blanks in
between; and where both scans are in code, the count without accessors is the same for such a line and for
its three parts on a line each. -/
theorem countLines_joined {shape : AccessorShape} (hshape : shape ∈ Language.java.accessorShapes) :
    (∀ t, '\n' ∉ t →
      (shape.isWhole Language.java.accessorClose t = true ↔ ∃ s b, shape.Joins s b t)) ∧
    ∀ (xs ys : List (List Char)) (s b t signature body close joined : List Char),
      Markers.java.regionAfter false .code (xs.map Text.trim) = .code →
      Markers.java.regionAfter true .code (xs.map Text.trim) = .code →
      '\n' ∉ t → shape.Joins s b t →
      Text.trim signature = Text.trim s → Text.trim body = Text.trim b →
      Text.trim close = ['\x7d'] → Text.trim joined = Text.trim t →
      ∃ n, countLines .java .enhanced true (xs ++ signature :: body :: close :: ys) = .ok n ∧
        countLines .java .enhanced true (xs ++ joined :: ys) = .ok n := by
  have hwhole (t : List Char) (ht : '\n' ∉ t) :
      shape.isWhole Language.java.accessorClose t = true ↔ ∃ s b, shape.Joins s b t :=
    AccessorShape.isWhole_iff (Accessor.isPlain_java shape hshape).1 (Accessor.isPlain_java shape hshape).2 ht
  refine ⟨hwhole, fun xs ys s b t signature body close joined hplain hstripping ht hjoins hsignature hbody
    hclose hjoined => ?_⟩
  obtain ⟨hns, hnb⟩ := hjoins.not_mem ht
  have hthree : StandsAtFront Language.java.accessorShapes Language.java.accessorClose [s, b, ['\x7d']] 3 :=
    .parts hshape hjoins.isSignature hjoins.isBody (by decide)
  have hone : StandsAtFront Language.java.accessorShapes Language.java.accessorClose [t] 1 :=
    .whole hshape ((hwhole t ht).mpr ⟨s, b, hjoins⟩)
  have hlines : ∀ line ∈ [s, b, ['\x7d']], '\n' ∉ line := by simp [hns, hnb]
  have hline : ∀ line ∈ [t], '\n' ∉ line := List.forall_mem_singleton.mpr ht
  have hparts : [signature, body, close].map Text.trim = [s, b, ['\x7d']].map Text.trim := by
    rw [List.map_cons, List.map_cons, List.map_cons, hsignature, hbody, hclose]
    rfl
  have hpart : [joined].map Text.trim = [t].map Text.trim := by rw [List.map_cons, hjoined, List.map_cons]
  -- In either layout the file has the count of what stands around the accessor.
  exact ⟨_, countLines_around hplain hstripping hlines hthree hparts ys,
    countLines_around hplain hstripping hline hone hpart ys⟩

/-- A setter on three indented lines and on one, behind a field and in front of a closing brace. -/
theorem countLines_joined_setter :
    let xs := ["class P \x7b", "  int x;"].map String.toList
    let ys := ["  // done", "\x7d"].map String.toList
    let s := "public void setX(final int y) \x7b".toList
    let b := "this.x = y;".toList
    let t := "public void setX(final int y) \x7bthis.x = y;  \x7d".toList
    Markers.java.regionAfter false .code (xs.map Text.trim) = .code ∧
      Markers.java.regionAfter true .code (xs.map Text.trim) = .code ∧
      '\n' ∉ t ∧ Language.javaSetter.Joins s b t ∧
      Language.javaSetter.isWhole Language.java.accessorClose t = true ∧
      countLines .java .enhanced true (xs ++ ("  ".toList ++ s) :: ("    ".toList ++ b) ::
        "  \x7d".toList :: ys) = .ok 3 ∧
      countLines .java .enhanced true (xs ++ ("  ".toList ++ t) :: ys) = .ok 3 := by
  intro xs ys s b t
  have hplain : Markers.java.regionAfter false .code (xs.map Text.trim) = .code := by decide +kernel
  have hstripping : Markers.java.regionAfter true .code (xs.map Text.trim) = .code := by decide +kernel
  have ht : '\n' ∉ t := by decide +kernel
  have hjoins : Language.javaSetter.Joins s b t :=
    ⟨by decide +kernel, by decide +kernel, [], "  ".toList, List.all_eq_true.mp rfl,
      List.all_eq_true.mp rfl, rfl⟩
  have hshape : Language.javaSetter ∈ Language.java.accessorShapes := by decide
  obtain ⟨hwhole, hcounts⟩ := countLines_joined hshape
  obtain ⟨n, hthree, hone⟩ := hcounts xs ys s b t ("  ".toList ++ s) ("    ".toList ++ b) "  \x7d".toList
    ("  ".toList ++ t) hplain hstripping ht hjoins (by decide) (by decide) (by decide) (by decide)
  have hcount : countLines .java .enhanced true (xs ++ ("  ".toList ++ t) :: ys) = .ok 3 := by decide +kernel
  obtain rfl : 3 = n := Except.ok.inj (hcount.symm.trans hone)
  exact ⟨hplain, hstripping, ht, hjoins, (hwhole t ht).mpr ⟨s, b, hjoins⟩, hthree, hone⟩

end SourceCensus
