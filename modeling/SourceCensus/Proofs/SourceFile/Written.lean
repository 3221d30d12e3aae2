import Mathlib
import SourceCensus.Proofs.Count.Layout
import SourceCensus.Proofs.Encoding.RoundTrip
import SourceCensus.Proofs.Import.Grammar
import SourceCensus.Proofs.SourceFile.Reading
import SourceCensus.Proofs.Text.LineEnds

/-!
# Files as they were written

A list of lines becomes a file when ends are put behind the lines and the text is written in UTF-8.  Which
ends these are is up to the editor, and may change within a file.  Of the lines nothing depends on it:

> the counts and the imports of the file are those of the lines (`SourceFile.written_lines`).

Reading gives the lines back but for empty ones (`Text.filled_lines_write`), and an empty line is of no
account: both scans pass over it in every region, so it does not come between the parts of an accessor
either (`countLines_filled`), and it imports nothing (`Import.ofLines_filled`).  Newline characters that a
reader leaves at the ends of its lines are blanks there and go with the others (`Text.KeepsEnd`).
-/

set_option autoImplicit false

namespace SourceCensus

/-! ## Empty lines -/

theorem countLines_append_filled (mode : CountMode) (dropAccessors : Bool) (xs lines : List (List Char)) :
    countLines .java mode dropAccessors (xs ++ Text.filled lines) =
      countLines .java mode dropAccessors (xs ++ lines) := by
  induction lines generalizing xs with
  | nil => rfl
  | cons line lines ih =>
    cases line with
    | nil =>
      rw [Text.filled_nil_cons, ih]
      exact (Relaid.blank xs lines (List.forall_mem_nil _)).countLines_eq mode dropAccessors
    | cons c line =>
      have hbehind := ih (xs ++ [c :: line])
      rw [List.append_assoc, List.append_assoc] at hbehind
      exact hbehind

theorem countLines_filled (mode : CountMode) (dropAccessors : Bool) (lines : List (List Char)) :
    countLines .java mode dropAccessors (Text.filled lines) = countLines .java mode dropAccessors lines :=
  countLines_append_filled mode dropAccessors [] lines

theorem Import.ofLines_filled (lines : List (List Char)) :
    ofLines .java (Text.filled lines) = ofLines .java lines := by
  have hempty : ofLine? .java [] = none := by decide +kernel
  induction lines with
  | nil => rfl
  | cons line lines ih =>
    cases line with
    | nil => rw [Text.filled_nil_cons, ih, ofLines, ofLines, List.filterMap_cons_none hempty]
    | cons c line =>
      rw [Text.filled_cons_cons, ofLines, List.filterMap_cons, ← ofLines, ih]
      rfl

/-! ## Ends that are left on the lines -/

/-- The line with any newline characters left at its end. -/
def Text.KeepsEnd (line raw : List Char) : Prop :=
  ∃ stop, (∀ c ∈ stop, Import.isNewline c = true) ∧ raw = line ++ stop

section KeepsEnd

variable {lines raws : List (List Char)} (h : List.Forall₂ Text.KeepsEnd lines raws)

include h

theorem countLines_of_keepsEnd (mode : CountMode) (dropAccessors : Bool) :
    countLines .java mode dropAccessors raws = countLines .java mode dropAccessors lines := by
  apply countLines_congr
  induction h with
  | nil => rfl
  | cons hraw _ ih =>
    obtain ⟨stop, hstop, rfl⟩ := hraw
    have hblanks : ∀ c ∈ stop, Text.isBlank c = true := by
      intro c hc
      exact Import.isBlank_of_isNewline (hstop c hc)
    rw [List.map_cons, List.map_cons, Text.trim_append_blanks hblanks, ih]

theorem Import.ofLines_of_keepsEnd (lang : Language) : ofLines lang raws = ofLines lang lines := by
  induction h with
  | nil => rfl
  | cons hraw _ ih =>
    obtain ⟨stop, hstop, rfl⟩ := hraw
    simp only [ofLines, List.filterMap_cons, ofLine?, dropNewlines_append hstop] at ih ⊢
    rw [ih]

end KeepsEnd

/-! ## Files -/

namespace SourceFile

open Text (LineEnd)

variable {fs : FileSystem} {p : Path} {name : String} {ended : List (List Char × LineEnd)}
  {last : Option (List Char)}

/-- Lines that are written in UTF-8, each with an end of its own and the last one perhaps without, have as a
file the counts and the imports that they have as lines.  None of them is cut by what it holds, and it makes
no difference whether a reader leaves the ends on them. -/
theorem written_lines (hname : Encoding.ofName? name = some .utf8)
    (hlines : ∀ line ∈ ended.map (·.1) ++ last.toList, Text.IsLine line)
    (hread : fs.readSource p = .ok { bytes := Utf8.encode (Text.write ended last) }) :
    let file := ended.map (·.1) ++ last.toList
    (∀ mode dropAccessors, ∃ n,
      count fs .java ⟨mode, .string name, dropAccessors⟩ p = .ok n ∧
        countLines .java mode dropAccessors file = .ok n) ∧
    imports fs .java (.string name) p = .ok (.ok (Import.ofLines .java file)) ∧
    ∃ read, lines fs (.string name) p = .ok read ∧ Text.filled read = Text.filled file ∧
      ∀ raws, List.Forall₂ Text.KeepsEnd read raws →
        (∀ mode dropAccessors,
          countLines .java mode dropAccessors raws = countLines .java mode dropAccessors file) ∧
        Import.ofLines .java raws = Import.ofLines .java file := by
  intro file
  have hfilled : Text.filled (Text.lines (Text.write ended last)) = Text.filled file :=
    Text.filled_lines_write hlines
  have hfile : lines fs (.string name) p = .ok (Text.lines (Text.write ended last)) := by
    rw [lines_of_readSource hname hread]
    simp only [Encoding.decode_utf8_encode]
    rfl
  have hcount (mode : CountMode) (dropAccessors : Bool) :
      countLines .java mode dropAccessors (Text.lines (Text.write ended last)) =
        countLines .java mode dropAccessors file := by
    rw [← countLines_filled, hfilled, countLines_filled]
  have himports : Import.ofLines .java (Text.lines (Text.write ended last)) =
      Import.ofLines .java file := by
    rw [← Import.ofLines_filled, hfilled, Import.ofLines_filled]
  refine ⟨?_, ?_, _, hfile, hfilled, ?_⟩
  · intro mode dropAccessors
    have hn := countLines_java mode dropAccessors file
    exact ⟨_, count_of_lines _ hfile ((hcount mode dropAccessors).trans hn), hn⟩
  · rw [imports_of_lines hfile, himports]
  · intro raws hraws
    refine ⟨fun mode dropAccessors => ?_, ?_⟩
    · rw [countLines_of_keepsEnd hraws, hcount]
    · rw [Import.ofLines_of_keepsEnd hraws, himports]

/-- A getter whose lines end in all three ways, with an empty line that is read as a part of an end. -/
theorem written_lines_mixed_ends :
    let ended : List (List Char × LineEnd) := [
      ("import a.B;".toList, .carriageReturn), ([], .lineFeed), ("int getX() \x7b".toList, .both),
      ("// \u2028 \u0085".toList, .lineFeed), ("return x;\u000b".toList, .carriageReturn)]
    let last := some "\x7d".toList
    let p : Path := ⟨.absolute, ["B.java"]⟩
    let fs : FileSystem := {
      entries := [(["B.java"], .file { bytes := Utf8.encode (Text.write ended last) })] }
    Encoding.ofName? "utf-8" = some .utf8 ∧
      (∀ line ∈ ended.map (·.1) ++ last.toList, Text.IsLine line) ∧
      fs.readSource p = .ok { bytes := Utf8.encode (Text.write ended last) } ∧
      (Text.lines (Text.write ended last)).length + 1 = (ended.map (·.1) ++ last.toList).length ∧
      count fs .java ⟨.enhanced, .string "utf-8", true⟩ p = .ok 1 ∧
      imports fs .java (.string "utf-8") p = .ok (.ok ["a.B"]) := by
  intro ended last p fs
  have hname : Encoding.ofName? "utf-8" = some .utf8 := by decide +kernel
  have hlines : ∀ line ∈ ended.map (·.1) ++ last.toList, Text.IsLine line := by
    unfold Text.IsLine
    decide +kernel
  have hread : fs.readSource p = .ok { bytes := Utf8.encode (Text.write ended last) } := rfl
  obtain ⟨hcounts, himports, -⟩ := written_lines hname hlines hread
  obtain ⟨n, hcount, hn⟩ := hcounts .enhanced true
  have hone : countLines .java .enhanced true (ended.map (·.1) ++ last.toList) = .ok 1 := by decide +kernel
  have hnames : Import.ofLines .java (ended.map (·.1) ++ last.toList) = ["a.B"] := by decide +kernel
  cases hn.symm.trans hone
  rw [hnames] at himports
  exact ⟨hname, hlines, hread, by decide +kernel, hcount, himports⟩

end SourceFile

end SourceCensus
