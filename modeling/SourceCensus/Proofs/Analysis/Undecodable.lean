import Mathlib
import SourceCensus.Proofs.Analysis.Outcome
import SourceCensus.Proofs.Encoding.Marks
import SourceCensus.Proofs.SourceFile.Reading

/-!
# Files that cannot be decoded

Whatever a file holds, it should not stop the census of the others: what is not in the encoding is replaced,
and what the system refuses is kept as the reason for a missing count.  A text that lacks its mark falls
between the two.  It is not replaced, and what the decoder says then is not a refusal of the system:

> in an encoding that is known, a file that can be read has a count and imports unless its bytes lack a
> mark, and then it has neither; a census is taken exactly when no file found lacks its mark
> (`reads_unless_unmarked`).

So a single file of two letters stops the census of any tree in UTF-16 (`stopped_by_unmarked`).
-/

set_option autoImplicit false

namespace SourceCensus

/-! ## One file -/

namespace SourceFile

variable {fs : FileSystem} {lang : Language} {name : String} {e : Encoding} {file : Path}
  {content : Content}

/-- The file is read, or the system refuses to read it. -/
def Settled (fs : FileSystem) (encoding : Value) (file : Path) : Prop :=
  (∃ read, lines fs encoding file = .ok read) ∨ ∃ r, lines fs encoding file = .error (.refused r)

section Known

variable (hknown : Encoding.ofName? name = some e)

include hknown

theorem lines_of_lacksMark (hread : fs.readSource file = .ok content)
    (hlacks : e.LacksMark content.bytes) :
    lines fs (.string name) file = .error (.noByteOrder (8 * e.unitLength)) := by
  rw [lines_of_readSource hknown hread, Encoding.decode_of_lacksMark hlacks]
  rfl

theorem exists_lines_of_not_lacksMark (hread : fs.readSource file = .ok content)
    (hwhole : content.broken = none) (hlacks : ¬ e.LacksMark content.bytes) :
    ∃ read, lines fs (.string name) file = .ok read := by
  obtain ⟨text, htext⟩ := Encoding.exists_decode_iff.mpr hlacks
  rw [lines_of_readSource hknown hread, htext, hwhole]
  exact ⟨_, rfl⟩

theorem settled_of_not_lacksMark
    (hmarked : ∀ content, fs.readSource file = .ok content → ¬ e.LacksMark content.bytes) :
    Settled fs (.string name) file := by
  cases hread : fs.readSource file with
  | error r =>
    right
    exact ⟨r, by rw [lines, hread]⟩
  | ok content =>
    cases hbroken : content.broken with
    | none =>
      left
      exact exists_lines_of_not_lacksMark hknown hread hbroken (hmarked content hread)
    | some errno =>
      right
      obtain ⟨text, htext⟩ := Encoding.exists_decode_iff.mpr (hmarked content hread)
      rw [lines_of_readSource hknown hread, htext, hbroken]
      exact ⟨_, rfl⟩

end Known

end SourceFile

/-! ## The whole tree -/

namespace Analysis

variable {fs : FileSystem} {settings : Settings} {subject : Subject} {file : Path}

theorem exists_importsOf (lang : Language)
    (h : SourceFile.Settled fs settings.encoding file) :
    ∃ entry, (importsOf fs lang settings.encoding file).outcome = .ok entry := by
  rw [outcome_importsOf]
  rcases h with ⟨read, hread⟩ | ⟨r, hr⟩
  · rw [SourceFile.imports_of_lines hread]
    exact ⟨_, rfl⟩
  · rw [SourceFile.imports_of_refused hr]
    exact ⟨_, rfl⟩

theorem exists_measure {lang : Language} (hcomment : lang.lineComment ≠ []) (mode : CountMode)
    (h : SourceFile.Settled fs settings.encoding file) :
    ∃ n, SourceFile.measure fs lang (countOptions settings mode) file = .ok n := by
  rcases h with ⟨read, hread⟩ | ⟨r, hr⟩
  · obtain ⟨n, hn⟩ := SourceFile.measure_of_lines (countOptions settings mode) hcomment hread
    exact ⟨_, hn⟩
  · exact ⟨_, SourceFile.measure_of_refused (countOptions settings mode) hr⟩

theorem exists_report (hcomment : subject.language.lineComment ≠ [])
    (h : SourceFile.Settled fs settings.encoding file) (findings : Findings) :
    ∃ r, (report fs settings subject findings file).outcome = .ok r := by
  obtain ⟨n, hn⟩ := exists_measure hcomment .baseline h
  obtain ⟨k, hk⟩ := exists_measure hcomment .enhanced h
  rw [outcome_report, outcome_sourceLines, outcome_enhancedLines, hn, hk]
  split
  · exact ⟨_, rfl⟩
  · exact ⟨_, rfl⟩

end Analysis

namespace Census

open Analysis

variable {fs : FileSystem} {settings : Settings} {root : Path} {subject : Subject}
  {names : List String} {files : List Path} {name : String} {e : Encoding}

/-- If no file lacks its mark, all files found are reported on. -/
theorem exists_take (hsubject : (prepare fs settings root).outcome = .ok subject)
    (hnames : (Analysis.namespaces fs settings subject.root).outcome = .ok names)
    (hfiles : (Analysis.files fs settings subject.root).outcome = .ok files)
    (hsettled : ∀ file ∈ files, SourceFile.Settled fs settings.encoding file) :
    ∃ census, (take fs settings root).outcome = .ok census ∧
      census.reports.map (·.path) = files := by
  obtain ⟨imports, himports⟩ := exists_mapM_iff.mpr fun file hfile =>
    exists_importsOf subject.language (hsettled file hfile)
  let graph := DependencyGraph.ofImports imports subject.root names subject.language.extension
  obtain ⟨reports, hreports⟩ := exists_mapM_iff.mpr fun file hfile =>
    exists_report (lineComment_of_prepare hsubject) (hsettled file hfile) ⟨graph, graph.closure⟩
  refine ⟨⟨subject.root, names, reports, collisionsOf files⟩, ?_, map_path_of_reports hreports⟩
  exact take_eq_ok_iff.mpr
    ⟨subject, hsubject, names, hnames, files, hfiles, imports, himports, reports, hreports, rfl⟩

/-- A single file that lacks its mark stops the census of all. -/
theorem take_of_lacksMark (hsubject : (prepare fs settings root).outcome = .ok subject)
    (hnames : (Analysis.namespaces fs settings subject.root).outcome = .ok names)
    (hfiles : (Analysis.files fs settings subject.root).outcome = .ok files)
    (hencoding : settings.encoding = .string name) (hknown : Encoding.ofName? name = some e)
    {file : Path} (hfile : file ∈ files) {content : Content}
    (hread : fs.readSource file = .ok content) (hlacks : e.LacksMark content.bytes) :
    (take fs settings root).outcome = .error (.defect (.noByteOrder (8 * e.unitLength))) := by
  have hstop : ∀ file content, fs.readSource file = .ok content → e.LacksMark content.bytes →
      (importsOf fs subject.language settings.encoding file).outcome =
        .error (.defect (.noByteOrder (8 * e.unitLength))) := by
    intro file content hread hlacks
    have hlines := SourceFile.lines_of_lacksMark hknown hread hlacks
    rw [hencoding, outcome_importsOf, SourceFile.imports_of_defect (by simp) hlines]
    rfl
  have himports : (files.mapM fun file =>
      (importsOf fs subject.language settings.encoding file).outcome) =
        .error (.defect (.noByteOrder (8 * e.unitLength))) := by
    refine mapM_eq_error ?_ hfile (hstop file content hread hlacks)
    intro file' _
    by_cases hmarked : ∀ content, fs.readSource file' = .ok content → ¬ e.LacksMark content.bytes
    · left
      apply exists_importsOf
      rw [hencoding]
      exact SourceFile.settled_of_not_lacksMark hknown hmarked
    · right
      push Not at hmarked
      obtain ⟨content', hread', hlacks'⟩ := hmarked
      exact hstop file' content' hread' hlacks'
  simp only [outcome_take, hsubject, bind, Except.bind, hnames, hfiles, himports]

/-- What a file that can be read comes to, and what a census comes to, in an encoding that is known. -/
theorem reads_unless_unmarked (fs : FileSystem) (hknown : Encoding.ofName? name = some e) :
    (∀ lang : Language, lang.lineComment ≠ [] → ∀ file content,
      fs.readSource file = .ok content → content.broken = none → ∀ mode dropAccessors,
        (e.LacksMark content.bytes →
          SourceFile.measure fs lang ⟨mode, .string name, dropAccessors⟩ file =
              .error (.noByteOrder (8 * e.unitLength)) ∧
            SourceFile.imports fs lang (.string name) file =
              .error (.noByteOrder (8 * e.unitLength))) ∧
        (¬ e.LacksMark content.bytes →
          (∃ n : Nat, SourceFile.measure fs lang ⟨mode, .string name, dropAccessors⟩ file =
              .ok (.counted n)) ∧
            ∃ imports, SourceFile.imports fs lang (.string name) file = .ok (.ok imports))) ∧
    ∀ settings root subject names files, settings.encoding = .string name →
      (prepare fs settings root).outcome = .ok subject →
      (Analysis.namespaces fs settings subject.root).outcome = .ok names →
      (Analysis.files fs settings subject.root).outcome = .ok files →
        ((∃ file ∈ files, ∃ content, fs.readSource file = .ok content ∧ e.LacksMark content.bytes) →
          (take fs settings root).outcome = .error (.defect (.noByteOrder (8 * e.unitLength)))) ∧
        ((∀ file ∈ files, ∀ content, fs.readSource file = .ok content →
            ¬ e.LacksMark content.bytes) →
          ∃ census, (take fs settings root).outcome = .ok census ∧
            census.reports.map (·.path) = files) := by
  constructor
  · intro lang hcomment file content hread hwhole mode dropAccessors
    constructor
    · intro hlacks
      have hlines := SourceFile.lines_of_lacksMark hknown hread hlacks
      exact ⟨SourceFile.measure_of_defect _ (by simp) hlines,
        SourceFile.imports_of_defect (by simp) hlines⟩
    · intro hmarked
      obtain ⟨read, hlines⟩ :=
        SourceFile.exists_lines_of_not_lacksMark hknown hread hwhole hmarked
      exact ⟨SourceFile.measure_of_lines _ hcomment hlines,
        Import.ofLines lang read, SourceFile.imports_of_lines hlines⟩
  · intro settings root subject names files hencoding hsubject hnames hfiles
    constructor
    · rintro ⟨file, hfile, content, hread, hlacks⟩
      exact take_of_lacksMark hsubject hnames hfiles hencoding hknown hfile hread hlacks
    · intro hmarked
      apply exists_take hsubject hnames hfiles
      intro file hfile
      rw [hencoding]
      exact SourceFile.settled_of_not_lacksMark hknown (hmarked file hfile)

/-- Two files; the first one holds two letters of one byte each, the second one nothing. -/
def unmarked : FileSystem where
  entries := [
    (["tree"], .directory), (["tree", "a"], .directory), (["tree", "b"], .directory),
    (["tree", "a", "A.java"], .file { bytes := [0x61, 0x3b, 0x0a] }),
    (["tree", "b", "B.java"], .file {})]

theorem lacksMark_unmarked : Encoding.utf16Marked.LacksMark [0x61, 0x3b, 0x0a] where
  wants := rfl
  room := by decide
  unmarked := by decide

theorem reads_unless_unmarked_both :
    let first : Path := ⟨.absolute, ["tree", "a", "A.java"]⟩
    let second : Path := ⟨.absolute, ["tree", "b", "B.java"]⟩
    let settings := { Settings.plain with encoding := .string "utf-16" }
    unmarked.readSource first = .ok { bytes := [0x61, 0x3b, 0x0a] } ∧
      unmarked.readSource second = .ok {} ∧
      (∀ mode dropAccessors, SourceFile.measure unmarked .java ⟨mode, .string "utf-16", dropAccessors⟩
        first = .error (.noByteOrder 16)) ∧
      (∀ mode dropAccessors, ∃ n : Nat, SourceFile.measure unmarked .java
        ⟨mode, .string "utf-16", dropAccessors⟩ second = .ok (.counted n)) ∧
      (take unmarked settings ⟨.absolute, ["tree"]⟩).outcome = .error (.defect (.noByteOrder 16)) := by
  intro first second settings
  have hfirst : unmarked.readSource first = .ok { bytes := [0x61, 0x3b, 0x0a] } := by decide +kernel
  have hsecond : unmarked.readSource second = .ok {} := by decide +kernel
  have hroom : ¬ Encoding.utf16Marked.LacksMark [] := fun h => absurd h.room (by decide)
  have hknown : Encoding.ofName? "utf-16" = some .utf16Marked := by decide +kernel
  have hprepare : (prepare unmarked settings ⟨.absolute, ["tree"]⟩).outcome =
      .ok ⟨⟨.absolute, ["tree"]⟩, .java⟩ := by cbv
  have hnames : (Analysis.namespaces unmarked settings ⟨.absolute, ["tree"]⟩).outcome =
      .ok ["a", "b"] := by cbv
  have hfiles : (Analysis.files unmarked settings ⟨.absolute, ["tree"]⟩).outcome =
      .ok [first, second] := by cbv
  obtain ⟨hfile, htree⟩ := reads_unless_unmarked unmarked hknown
  refine ⟨hfirst, hsecond, ?_, ?_, ?_⟩
  · intro mode dropAccessors
    exact ((hfile .java (by decide) first _ hfirst rfl mode dropAccessors).1 lacksMark_unmarked).1
  · intro mode dropAccessors
    exact ((hfile .java (by decide) second _ hsecond rfl mode dropAccessors).2 hroom).1
  · exact (htree settings _ _ _ _ rfl hprepare hnames hfiles).1
      ⟨first, List.mem_cons_self, _, hfirst, lacksMark_unmarked⟩

/-- Neither count nor imports of the first file, and no census of both. -/
theorem stopped_by_unmarked :
    let first : Path := ⟨.absolute, ["tree", "a", "A.java"]⟩
    let settings := { Settings.plain with encoding := .string "utf-16" }
    SourceFile.measure unmarked .java (countOptions settings .baseline) first =
        .error (.noByteOrder 16) ∧
      SourceFile.imports unmarked .java settings.encoding first = .error (.noByteOrder 16) ∧
      (take unmarked settings ⟨.absolute, ["tree"]⟩).outcome = .error (.defect (.noByteOrder 16)) := by
  intro first settings
  refine ⟨?_, ?_, ?_⟩
  · cbv
  · cbv
  · cbv

end Census

end SourceCensus
