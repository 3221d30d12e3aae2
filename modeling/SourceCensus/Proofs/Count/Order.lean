import SourceCensus.Language.Java
import SourceCensus.Proofs.Accessor.Windows
import SourceCensus.Proofs.Count.Candidates

/-!
# The order of the counts

A file has three counts, and each leaves out more than the one before:

> lines that are not blank ≥ baseline ≥ enhanced with accessors ≥ enhanced without them.

The first step holds because neither scan counts an empty line outside a block comment, and the plain scan
is never inside one.  The second holds line by line, since a line goes into the enhanced count only when
both scans count it.  The third is a subtraction of natural numbers, which could hide that too much is taken
away.  So it is stated as a sum (`counts_ordered`): what is left and the accessor lines together are what
there was.  That needs each accessor line to have been counted, and to be taken away once only; it is a
candidate, and the search never goes back.
-/

set_option autoImplicit false

namespace SourceCensus

namespace Markers

variable {m : Markers} {region : Region} {line : List Char}

theorem region_verdict_plain_ne_comment (h : region ≠ .comment) :
    (m.verdict false region line).region ≠ .comment := by
  cases region with
  | comment => exact absurd rfl h
  | text =>
    simp only [verdict, verdictInText]
    split <;> simp
  | code =>
    simp only [verdict, Bool.false_eq_true, if_false]
    split <;> simp [verdictAtDelimiter, verdictInCode]

theorem regionAfter_plain_ne_comment (h : region ≠ .comment) (lines : List (List Char)) :
    m.regionAfter false region lines ≠ .comment := by
  induction lines generalizing region with
  | nil => exact h
  | cons line lines ih => exact ih (region_verdict_plain_ne_comment h)

/-- The plain scan counts no empty line. -/
theorem ne_nil_of_counted_plain (h : region ≠ .comment)
    (hcounted : (m.verdict false region line).counted = true) : line ≠ [] := by
  rintro rfl
  cases region with
  | comment => exact h rfl
  | text => simp [verdict, verdictInText] at hcounted
  | code =>
    simp only [verdict, Bool.false_eq_true, if_false] at hcounted
    split at hcounted <;> simp [verdictAtDelimiter, verdictInCode] at hcounted

end Markers

namespace Survey

variable {m : Markers} {lang : Language}

/-! ## Blank lines, baseline, enhanced -/

theorem baseline_ofLinesFrom_le {plain stripping : Region} (h : plain ≠ .comment)
    (lines : List (List Char)) :
    (ofLinesFrom m plain stripping lines).baseline ≤
      lines.countP (fun raw => !(Text.trim raw).isEmpty) := by
  unfold baseline
  -- The region of the stripping scan runs along, because the survey holds both verdicts.
  induction lines generalizing plain stripping with
  | nil => exact Nat.le_refl 0
  | cons raw lines ih =>
    have hregion : (m.verdict false plain (Text.trim raw)).region ≠ .comment :=
      Markers.region_verdict_plain_ne_comment h
    rw [ofLinesFrom, List.countP_cons, List.countP_cons]
    by_cases hcounted : (m.verdict false plain (Text.trim raw)).counted = true
    · have hline : Text.trim raw ≠ [] := Markers.ne_nil_of_counted_plain h hcounted
      simp only [hcounted, if_true, List.isEmpty_eq_false_iff.mpr hline, Bool.not_false]
      exact Nat.add_le_add_right (ih hregion) 1
    · simp only [hcounted]
      exact Nat.le_trans (ih hregion) (Nat.le_add_right _ _)

theorem baseline_le (m : Markers) (lines : List (List Char)) :
    (ofLines m lines).baseline ≤ lines.countP (fun raw => !(Text.trim raw).isEmpty) :=
  baseline_ofLinesFrom_le (by simp) lines

theorem shared_le_baseline (s : Survey) : s.shared ≤ s.baseline := by
  refine List.countP_mono_left fun e _ he => ?_
  rw [Surveyed.shared, Bool.and_eq_true] at he
  exact he.1

/-! ## Accessors -/

theorem accessorLines_sublist (s : Survey) :
    (s.accessorLines lang).Sublist (s.candidates.map (·.1)) :=
  Accessor.positionsFrom_sublist 0 s.candidates

/-- No line is taken for part of an accessor twice. -/
theorem nodup_accessorLines (s : Survey) : (s.accessorLines lang).Nodup := by
  have hsorted : (s.candidates.map (·.1)).Pairwise (· < ·) :=
    List.pairwise_map.mpr s.pairwise_candidates
  exact (hsorted.sublist s.accessorLines_sublist).imp Nat.ne_of_lt

theorem isCandidate_of_mem_accessorLines {s : Survey} {i : Nat} (h : i ∈ s.accessorLines lang) :
    ∃ e, s[i]? = some e ∧ e.isCandidate = true := by
  obtain ⟨c, hc, rfl⟩ := List.mem_map.mp (s.accessorLines_sublist.subset h)
  obtain ⟨e, he, hcandidate, -⟩ := mem_candidates.mp hc
  exact ⟨e, he, hcandidate⟩

theorem length_accessorLines_le (s : Survey) : (s.accessorLines lang).length ≤ s.shared := by
  have hlength : (s.accessorLines lang).length ≤ s.candidates.length := by
    simpa using s.accessorLines_sublist.length_le
  rw [length_candidates] at hlength
  refine Nat.le_trans hlength (List.countP_mono_left fun e _ he => ?_)
  rw [Surveyed.isCandidate, Bool.and_eq_true] at he
  exact he.1

/-- A search among the candidates by their numbers finds the accessor lines. -/
theorem find_candidates (s : Survey) :
    Accessor.find lang (s.map (·.line)) (s.candidates.map (·.1)) = .ok (s.accessorLines lang) := by
  unfold Accessor.find
  split
  · next hshapes =>
    rw [accessorLines, Accessor.positions, List.isEmpty_iff.mp hshapes,
      Accessor.positionsFrom_nil_shapes]
  · rw [mapM_candidates]
    rfl

/-! ## What the scans say of a line -/

theorem map_line_ofLinesFrom (m : Markers) (p q : Region) (lines : List (List Char)) :
    (ofLinesFrom m p q lines).map (·.line) = lines.map Text.trim := by
  induction lines generalizing p q with
  | nil => rfl
  | cons raw lines ih => simp [ofLinesFrom, ih]

theorem map_line_ofLines (m : Markers) (lines : List (List Char)) :
    (ofLines m lines).map (·.line) = lines.map Text.trim :=
  map_line_ofLinesFrom m .code .code lines

theorem getElem?_plain {lines : List (List Char)} {i : Nat} {e : Surveyed}
    (h : (ofLines m lines)[i]? = some e) :
    (m.verdicts false .code (lines.map Text.trim))[i]? = some e.plain := by
  rw [← map_plain_ofLinesFrom m .code .code, List.getElem?_map, ← ofLines, h, Option.map_some]

theorem getElem?_stripping {lines : List (List Char)} {i : Nat} {e : Surveyed}
    (h : (ofLines m lines)[i]? = some e) :
    (m.verdicts true .code (lines.map Text.trim))[i]? = some e.stripping := by
  rw [← map_stripping_ofLinesFrom m .code .code, List.getElem?_map, ← ofLines, h, Option.map_some]

end Survey

/-! ## The counts of a file -/

open Survey

/-- The counts of a file go down from the lines that are not blank to the enhanced count without accessors.
The last two counts differ by the number of accessor lines; each of these is one line of the file that both
scans count and that the stripping scan does not see as part of a text block. -/
theorem counts_ordered {lang : Language} (h : lang.lineComment ≠ []) (lines : List (List Char)) :
    ∃ (m : Markers) (dropped kept base : Nat) (found : List Nat),
      Markers.ofLanguage lang = .ok m ∧
      countLines lang .enhanced true lines = .ok dropped ∧
      countLines lang .enhanced false lines = .ok kept ∧
      (∀ dropAccessors, countLines lang .baseline dropAccessors lines = .ok base) ∧
      dropped ≤ kept ∧ kept ≤ base ∧ base ≤ lines.countP (fun raw => !(Text.trim raw).isEmpty) ∧
      Accessor.find lang (lines.map Text.trim) ((ofLines m lines).candidates.map (·.1)) = .ok found ∧
      found.Nodup ∧ dropped + found.length = kept ∧
      ∀ i ∈ found, i < lines.length ∧
        ∃ plain stripping,
          (m.verdicts false .code (lines.map Text.trim))[i]? = some plain ∧
          (m.verdicts true .code (lines.map Text.trim))[i]? = some stripping ∧
          plain.counted = true ∧ stripping.counted = true ∧ stripping.inText = false := by
  obtain ⟨m, hm⟩ : ∃ m, Markers.ofLanguage lang = .ok m := by
    have hok := (Markers.ofLanguage_isOk_iff lang).mpr h
    cases hof : Markers.ofLanguage lang with
    | error d => simp [hof, Except.toOption] at hok
    | ok m => exact ⟨m, rfl⟩
  have hle : ((ofLines m lines).accessorLines lang).length ≤ (ofLines m lines).shared :=
    length_accessorLines_le _
  refine ⟨m, (ofLines m lines).shared - ((ofLines m lines).accessorLines lang).length,
    (ofLines m lines).shared, (ofLines m lines).baseline, (ofLines m lines).accessorLines lang, hm,
    ?_, ?_, ?_, Nat.sub_le _ _, (ofLines m lines).shared_le_baseline, baseline_le m lines, ?_,
    (ofLines m lines).nodup_accessorLines, Nat.sub_add_cancel hle, ?_⟩
  · rw [countLines, hm]
    rfl
  · rw [countLines, hm]
    rfl
  · intro dropAccessors
    rw [countLines, hm]
    rfl
  · rw [← map_line_ofLines m lines]
    exact (ofLines m lines).find_candidates
  · intro i hi
    obtain ⟨e, he, hcandidate⟩ := isCandidate_of_mem_accessorLines hi
    have hlt : i < (ofLines m lines).length := (List.getElem?_eq_some_iff.mp he).1
    simp only [Surveyed.isCandidate, Surveyed.shared, Bool.and_eq_true, Bool.not_eq_eq_eq_not,
      Bool.not_true] at hcandidate
    obtain ⟨⟨hplain, hstripping⟩, htext⟩ := hcandidate
    exact ⟨length_ofLines m lines ▸ hlt, e.plain, e.stripping, getElem?_plain he,
      getElem?_stripping he, hplain, hstripping, htext⟩

theorem counts_ordered_getter :
    let lines := ["/* why */", "int getX() \x7b", "return x;", "\x7d"].map String.toList
    Language.java.lineComment ≠ [] ∧ ∃ dropped kept base,
      countLines .java .enhanced true lines = .ok dropped ∧
      countLines .java .enhanced false lines = .ok kept ∧
      countLines .java .baseline true lines = .ok base ∧
      dropped ≤ kept ∧ kept ≤ base ∧ base ≤ 4 := by
  intro lines
  have hcomment : Language.java.lineComment ≠ [] := by decide
  obtain ⟨m, dropped, kept, base, found, -, hdropped, hkept, hbase, hle, hle', hle'', -⟩ :=
    counts_ordered hcomment lines
  exact ⟨hcomment, dropped, kept, base, hdropped, hkept, hbase true, hle, hle', hle''⟩

end SourceCensus
