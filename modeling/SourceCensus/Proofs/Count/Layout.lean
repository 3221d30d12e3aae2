import Mathlib.Logic.Relation
import SourceCensus.Proofs.Count.Joining
import SourceCensus.Proofs.Line.Unmarked
import SourceCensus.Proofs.Text.Trimming

/-!
# The layout of a file

A file can be laid out anew without a change to what it says: its lines indented otherwise, blank lines put
in or taken out, a remark written on a line of its own.  None of this may show in a count.  `Relaid` is one
such change, and a file comes out of another by any number of them, made or undone; then

> both files have the same three counts (`countLines_relaid`).

A change at the ends of a line is not seen, since both scans look at trimmed lines
(`Survey.ofLinesFrom_congr`).  A line that is put in shifts the number of every line behind it, and it must
be passed over by both scans in the regions they are in there (`Markers.Skips`).  A blank line is, wherever
it stands.  A line that starts with the marker of a line comment is passed over where both scans are in code,
and there alone: in a text block it would count, and in a block comment it could close it.
-/

set_option autoImplicit false

namespace SourceCensus

/-- One change of the layout of a Java file: blanks at the ends of a line, a blank line, or, where both scans
are in code, a line with nothing but a line comment. -/
inductive Relaid : List (List Char) → List (List Char) → Prop
  | ends (xs ys : List (List Char)) (line : List Char) {left right : List Char}
      (hleft : ∀ c ∈ left, Text.isBlank c = true) (hright : ∀ c ∈ right, Text.isBlank c = true) :
      Relaid (xs ++ line :: ys) (xs ++ (left ++ line ++ right) :: ys)
  | blank (xs ys : List (List Char)) {raw : List Char} (hraw : ∀ c ∈ raw, Text.isBlank c = true) :
      Relaid (xs ++ ys) (xs ++ raw :: ys)
  | remark (xs ys : List (List Char)) {raw : List Char}
      (hplain : Markers.java.regionAfter false .code (xs.map Text.trim) = .code)
      (hstripping : Markers.java.regionAfter true .code (xs.map Text.trim) = .code)
      (hraw : Language.java.lineComment <+: Text.trim raw) : Relaid (xs ++ ys) (xs ++ raw :: ys)

/-! ## Lines that are passed over -/

namespace Survey

variable {m : Markers} {lang : Language} {p q : Region} {xs ys : List (List Char)} {raw : List Char}

/-- A survey looks at trimmed lines only. -/
theorem ofLinesFrom_congr {lines lines' : List (List Char)} (h : lines.map Text.trim = lines'.map Text.trim) :
    ofLinesFrom m p q lines = ofLinesFrom m p q lines' := by
  induction lines generalizing p q lines' with
  | nil =>
    obtain rfl := List.map_eq_nil_iff.mp h.symm
    rfl
  | cons raw lines ih =>
    obtain ⟨raw', lines'', rfl, hraw, hlines⟩ := List.map_eq_cons_iff.mp h.symm
    rw [ofLinesFrom, ofLinesFrom, hraw, ih hlines.symm]

theorem baseline_without_skipped
    (hplain : m.Skips false (m.regionAfter false .code (xs.map Text.trim)) (Text.trim raw))
    (hstripping : m.Skips true (m.regionAfter true .code (xs.map Text.trim)) (Text.trim raw)) :
    (ofLines m (xs ++ raw :: ys)).baseline = (ofLines m (xs ++ ys)).baseline := by
  simp only [baseline, ofLines, ofLinesFrom_append, ofLinesFrom, List.countP_append, List.countP_cons,
    hplain.counted, hplain.region, hstripping.region, Bool.false_eq_true, if_false, Nat.add_zero]

theorem enhanced_without_skipped
    (hplain : m.Skips false (m.regionAfter false .code (xs.map Text.trim)) (Text.trim raw))
    (hstripping : m.Skips true (m.regionAfter true .code (xs.map Text.trim)) (Text.trim raw))
    (dropAccessors : Bool) :
    (ofLines m (xs ++ raw :: ys)).enhanced lang dropAccessors =
      (ofLines m (xs ++ ys)).enhanced lang dropAccessors := by
  rw [← List.singleton_append, ← List.append_assoc]
  exact enhanced_without (.line hplain.region hstripping.counted hstripping.region) dropAccessors

end Survey

/-- A count is taken of trimmed lines. -/
theorem countLines_congr {file file' : List (List Char)} (h : file.map Text.trim = file'.map Text.trim)
    (mode : CountMode) (dropAccessors : Bool) :
    countLines .java mode dropAccessors file = countLines .java mode dropAccessors file' := by
  have hsurvey : Survey.ofLines .java file = Survey.ofLines .java file' := Survey.ofLinesFrom_congr h
  rw [countLines_java, countLines_java, hsurvey]

/-- A line that both scans pass over makes no difference to a count. -/
theorem countLines_without_skipped {xs ys : List (List Char)} {raw : List Char}
    (hplain : Markers.java.Skips false (Markers.java.regionAfter false .code (xs.map Text.trim))
      (Text.trim raw))
    (hstripping : Markers.java.Skips true (Markers.java.regionAfter true .code (xs.map Text.trim))
      (Text.trim raw)) (mode : CountMode) (dropAccessors : Bool) :
    countLines .java mode dropAccessors (xs ++ raw :: ys) = countLines .java mode dropAccessors (xs ++ ys) := by
  rw [countLines_java, countLines_java]
  cases mode with
  | baseline => exact congrArg Except.ok (Survey.baseline_without_skipped hplain hstripping)
  | enhanced => exact congrArg Except.ok (Survey.enhanced_without_skipped hplain hstripping dropAccessors)

/-- In a Java file, a line comment is passed over whatever it says. -/
theorem Markers.skips_lineComment_java {line : List Char} (strip : Bool)
    (h : Language.java.lineComment <+: line) : java.Skips strip .code line := by
  obtain ⟨text, rfl⟩ := h
  have hopen : ¬ Language.java.blockOpen <+: Language.java.lineComment ++ text := by
    rw [← List.isPrefixOf_iff_prefix]
    exact Bool.noConfusion
  have hdelimiter : ¬ Language.java.textDelimiter <+: Language.java.lineComment ++ text := by
    rw [← List.isPrefixOf_iff_prefix]
    exact Bool.noConfusion
  exact skips_lineComment ofLanguage_java rfl (List.prefix_append _ _) hopen hdelimiter

/-! ## Changes of the layout -/

theorem Relaid.countLines_eq {file file' : List (List Char)} (h : Relaid file file') (mode : CountMode)
    (dropAccessors : Bool) :
    countLines .java mode dropAccessors file = countLines .java mode dropAccessors file' := by
  cases h with
  | @ends xs ys line left right hleft hright =>
    apply countLines_congr
    simp only [List.map_append, List.map_cons, Text.trim_blanks hleft hright]
  | @blank xs ys raw hraw =>
    have hskips (strip : Bool) (region : Region) : Markers.java.Skips strip region (Text.trim raw) := by
      rw [Text.trim_eq_nil hraw]
      exact Markers.skips_nil Markers.ofLanguage_java (by decide) (by decide) (by decide)
    exact (countLines_without_skipped (hskips false _) (hskips true _) mode dropAccessors).symm
  | remark xs ys hplain hstripping hraw =>
    refine (countLines_without_skipped ?_ ?_ mode dropAccessors).symm
    · rw [hplain]
      exact Markers.skips_lineComment_java false hraw
    · rw [hstripping]
      exact Markers.skips_lineComment_java true hraw

/-- Java files that differ in their layout only have the same counts. -/
theorem countLines_relaid {file file' : List (List Char)} (h : Relation.EqvGen Relaid file file')
    (mode : CountMode) (dropAccessors : Bool) :
    ∃ n, countLines .java mode dropAccessors file = .ok n ∧
      countLines .java mode dropAccessors file' = .ok n := by
  have heq : countLines .java mode dropAccessors file = countLines .java mode dropAccessors file' := by
    induction h with
    | rel _ _ h => exact h.countLines_eq mode dropAccessors
    | refl _ => rfl
    | symm _ _ _ ih => exact ih.symm
    | trans _ _ _ _ _ ih ih' => exact ih.trans ih'
  refine ⟨_, countLines_java mode dropAccessors file, ?_⟩
  rw [← heq, countLines_java]

/-- A getter with a remark and a blank line between its parts, and the same getter without them and with its
statement indented. -/
theorem countLines_relaid_getter :
    let file := ["int getX() \x7b", "//* \"\"\"", "\t", "return x;", "\x7d"].map String.toList
    let file' := ["int getX() \x7b", "\u2003return x; ", "\x7d"].map String.toList
    Relation.EqvGen Relaid file file' ∧
      ∃ n, countLines .java .enhanced true file = .ok n ∧
        countLines .java .enhanced true file' = .ok n := by
  intro file file'
  have hremark : Relaid (["int getX() \x7b", "\t", "return x;", "\x7d"].map String.toList) file :=
    .remark ["int getX() \x7b".toList] (["\t", "return x;", "\x7d"].map String.toList) (by decide +kernel)
      (by decide +kernel) (by decide +kernel)
  have hblank : Relaid (["int getX() \x7b", "return x;", "\x7d"].map String.toList)
      (["int getX() \x7b", "\t", "return x;", "\x7d"].map String.toList) :=
    .blank ["int getX() \x7b".toList] (["return x;", "\x7d"].map String.toList)
      (List.all_eq_true.mp (by decide +kernel))
  have hleft : ∀ c ∈ ['\u2003'], Text.isBlank c = true := List.all_eq_true.mp (by decide)
  have hright : ∀ c ∈ [' '], Text.isBlank c = true := List.all_eq_true.mp (by decide)
  have hends : Relaid (["int getX() \x7b", "return x;", "\x7d"].map String.toList) file' :=
    .ends ["int getX() \x7b".toList] ["\x7d".toList] "return x;".toList hleft hright
  have hrelaid : Relation.EqvGen Relaid file file' :=
    ((Relation.EqvGen.rel _ _ hremark).symm.trans _ _ _ (Relation.EqvGen.rel _ _ hblank).symm).trans _ _ _
      (.rel _ _ hends)
  exact ⟨hrelaid, countLines_relaid hrelaid .enhanced true⟩

end SourceCensus
