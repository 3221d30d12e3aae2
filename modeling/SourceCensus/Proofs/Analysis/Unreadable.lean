import Mathlib
import SourceCensus.Proofs.Analysis.Outcome
import SourceCensus.Proofs.FileSystem.Emptying
import SourceCensus.Proofs.SourceFile.Reading

/-!
# Files that cannot be read

A file that the system does not let anyone open or read to its end must not spoil the census of the others.
To say so, compare the tree with the same one in which the file can be read and is empty:

> both censuses are the same, but that the counts of the file are missing in one of them, and say why
> (`take_unreadable`).

An empty file has no imports and neither has an unreadable one, so the graph is the same, and with it all
that files depend on.  What else is said of a file comes from that file alone.

An empty file has to be an empty text in the encoding, whichever that is.  The system refuses before the
encoding is looked up, so a file that cannot be read hides that nobody knows the encoding, and an empty file
does not (`unknown_encoding_hidden`).
-/

set_option autoImplicit false

namespace SourceCensus

open Analysis

/-- What a report says when the system refused to read the file. -/
def FileReport.uncounted (r : FileReport) (kind : FailureKind) : FileReport where
  path := r.path
  sourceLines := .failed kind
  enhancedLines := r.enhancedLines.map fun _ => .failed kind
  dependencies := r.dependencies
  direct := r.direct
  imports := r.imports
  rootNamespace := r.rootNamespace

def Census.mapReports (f : FileReport → FileReport) (census : Census) : Census where
  root := census.root
  namespaces := census.namespaces
  reports := census.reports.map f
  collisions := census.collisions

namespace Analysis

variable {fs fs' : FileSystem} {settings : Settings} {root : Path} {subject : Subject}

/-! ## What does not look into files -/

theorem outcome_prepare_of_skeleton (h : fs'.skeleton = fs.skeleton) :
    (prepare fs' settings root).outcome = (prepare fs settings root).outcome := by
  rw [outcome_prepare, outcome_prepare, ← Root.validate_skeleton fs', h, Root.validate_skeleton fs]

theorem outcome_namespaces_of_skeleton (h : fs'.skeleton = fs.skeleton) :
    (namespaces fs' settings root).outcome = (namespaces fs settings root).outcome := by
  rw [outcome_namespaces, outcome_namespaces, ← Root.namespaces_skeleton fs', h,
    Root.namespaces_skeleton fs]

theorem files_of_skeleton (h : fs'.skeleton = fs.skeleton) :
    Analysis.files fs' settings root = Analysis.files fs settings root := by
  rw [Analysis.files, Analysis.files, ← Walk.ofRoot_skeleton fs', h, Walk.ofRoot_skeleton fs]

/-! ## What does -/

theorem outcome_importsOf_of_nothing {lang : Language} {file : Path}
    (h : SourceFile.lines fs settings.encoding file = .ok []) :
    (importsOf fs lang settings.encoding file).outcome = .ok (file, []) := by
  rw [outcome_importsOf, SourceFile.imports_of_lines h]
  rfl

section Unemptied

variable {file : Path} (h : SourceFile.lines fs settings.encoding file =
  SourceFile.lines fs' settings.encoding file)

include h

theorem outcome_importsOf_congr {lang : Language} :
    (importsOf fs lang settings.encoding file).outcome =
      (importsOf fs' lang settings.encoding file).outcome := by
  rw [outcome_importsOf, outcome_importsOf, SourceFile.imports_congr h]

theorem outcome_report_congr {findings : Findings} :
    (report fs settings subject findings file).outcome =
      (report fs' settings subject findings file).outcome := by
  have hbase : (sourceLines fs subject.language settings file).outcome =
      (sourceLines fs' subject.language settings file).outcome := by
    rw [outcome_sourceLines, outcome_sourceLines, SourceFile.measure_congr h]
  have henhanced : (enhancedLines fs subject.language settings file).outcome =
      (enhancedLines fs' subject.language settings file).outcome := by
    rw [outcome_enhancedLines, outcome_enhancedLines, SourceFile.measure_congr h]
  rw [outcome_report, outcome_report, hbase, henhanced]

end Unemptied

section Refused

variable {file : Path} {e : OsError}
  (hrefused : SourceFile.lines fs settings.encoding file = .error (.refused e))

include hrefused

theorem outcome_importsOf_of_refused (lang : Language) :
    (importsOf fs lang settings.encoding file).outcome = .ok (file, []) := by
  rw [outcome_importsOf, SourceFile.imports_of_refused hrefused]
  rfl

theorem outcome_sourceLines_of_refused {lang : Language} :
    (sourceLines fs lang settings file).outcome = .ok (.failed (.ofErrno e.errno)) := by
  rw [outcome_sourceLines, SourceFile.measure_of_refused (countOptions settings .baseline) hrefused]
  rfl

theorem outcome_enhancedLines_of_refused {lang : Language} :
    (enhancedLines fs lang settings file).outcome =
      .ok (if settings.enhanced.isTruthy then some (.failed (.ofErrno e.errno)) else none) := by
  rw [outcome_enhancedLines, SourceFile.measure_of_refused (countOptions settings .enhanced) hrefused]
  split <;> rfl

/-- A refused file is reported on as an empty one is, but for the counts. -/
theorem outcome_report_of_refused (hcomment : subject.language.lineComment ≠ [])
    (hempty : SourceFile.lines fs' settings.encoding file = .ok []) {findings : Findings} :
    (report fs settings subject findings file).outcome =
      (·.uncounted (.ofErrno e.errno)) <$> (report fs' settings subject findings file).outcome := by
  obtain ⟨n, hn⟩ := SourceFile.measure_of_lines (countOptions settings .baseline) hcomment hempty
  obtain ⟨k, hk⟩ := SourceFile.measure_of_lines (countOptions settings .enhanced) hcomment hempty
  rw [outcome_report, outcome_report, outcome_sourceLines_of_refused hrefused,
    outcome_enhancedLines_of_refused hrefused, outcome_sourceLines, outcome_enhancedLines, hn, hk]
  split <;> rfl

end Refused

section Emptied

variable {emptied : Path → Bool} {refusal : Path → OsError} {file : Path}
  (hsame : emptied file = false →
    SourceFile.lines fs settings.encoding file = SourceFile.lines fs' settings.encoding file)
  (hrefused : emptied file = true →
    SourceFile.lines fs settings.encoding file = .error (.refused (refusal file)))
  (hempty : emptied file = true → SourceFile.lines fs' settings.encoding file = .ok [])

include hsame hrefused hempty

theorem outcome_importsOf_of_emptied (lang : Language) :
    (importsOf fs lang settings.encoding file).outcome =
      (importsOf fs' lang settings.encoding file).outcome := by
  cases hemptied : emptied file with
  | false => exact outcome_importsOf_congr (hsame hemptied)
  | true =>
    rw [outcome_importsOf_of_refused (hrefused hemptied),
      outcome_importsOf_of_nothing (hempty hemptied)]

theorem outcome_report_of_emptied (hcomment : subject.language.lineComment ≠ [])
    (findings : Findings) :
    (report fs settings subject findings file).outcome =
      (fun r : FileReport =>
        if emptied r.path then r.uncounted (.ofErrno (refusal r.path).errno) else r) <$>
        (report fs' settings subject findings file).outcome := by
  have hpath : ∀ r, (report fs' settings subject findings file).outcome = .ok r → r.path = file := by
    intro r hr
    obtain ⟨_, _, _, _, rfl⟩ := report_eq_ok_iff.mp hr
    rfl
  cases hemptied : emptied file with
  | false =>
    rw [outcome_report_congr (hsame hemptied)]
    conv_lhs => rw [← id_map (report fs' settings subject findings file).outcome]
    apply map_congr_of_ok
    intro r hr
    rw [hpath r hr, hemptied]
    rfl
  | true =>
    rw [outcome_report_of_refused (hrefused hemptied) hcomment (hempty hemptied)]
    apply map_congr_of_ok
    intro r hr
    rw [hpath r hr, hemptied]
    rfl

end Emptied

end Analysis

namespace Census

variable {fs fs' : FileSystem} {settings : Settings} {root : Path}

/-- Two trees with one skeleton in which all files import the same have censuses that differ as their
reports on single files do. -/
theorem outcome_take_of_skeleton (mark : FileReport → FileReport)
    (hskeleton : fs'.skeleton = fs.skeleton)
    (himports : ∀ subject, (prepare fs settings root).outcome = .ok subject →
      ∀ file, Walked fs settings root file →
        (importsOf fs subject.language settings.encoding file).outcome =
          (importsOf fs' subject.language settings.encoding file).outcome)
    (hreport : ∀ subject, (prepare fs settings root).outcome = .ok subject →
      ∀ file, Walked fs settings root file → ∀ findings,
        (report fs settings subject findings file).outcome =
          mark <$> (report fs' settings subject findings file).outcome) :
    (take fs settings root).outcome =
      mapReports mark <$> (take fs' settings root).outcome := by
  simp only [outcome_take, outcome_prepare_of_skeleton hskeleton,
    outcome_namespaces_of_skeleton hskeleton, files_of_skeleton hskeleton]
  refine bind_eq_map_bind _ fun subject hsubject => ?_
  refine bind_eq_map_bind _ fun names _ => ?_
  refine bind_eq_map_bind _ fun files hfiles => ?_
  have hwalked : ∀ file ∈ files, Walked fs settings root file :=
    fun file hfile => ⟨subject, hsubject, files, hfiles, hfile⟩
  rw [mapM_congr fun file hfile => himports subject hsubject file (hwalked file hfile)]
  refine bind_eq_map_bind _ fun imports _ => ?_
  rw [mapM_eq_map_mapM mark fun file hfile => hreport subject hsubject file (hwalked file hfile) _]
  cases files.mapM fun file => (report fs' settings subject _ file).outcome with
  | error e => rfl
  | ok reports => rfl

/-! ## What a census says of a file -/

section Taken

variable {census : Census} (hcensus : (take fs settings root).outcome = .ok census)

include hcensus

theorem mem_failedFiles_of_refused {file : Path} (hwalked : Walked fs settings root file) {e : OsError}
    (hrefused : SourceFile.lines fs settings.encoding file = .error (.refused e)) :
    file ∈ census.failedFiles := by
  obtain ⟨subject, hsubject, files, hfiles, findings, -, hreports⟩ := steps_of_take hcensus
  obtain ⟨subject', hsubject', files', hfiles', hfile⟩ := hwalked
  obtain rfl : subject' = subject := Except.ok.inj (hsubject'.symm.trans hsubject)
  obtain rfl : files' = files := Except.ok.inj (hfiles'.symm.trans hfiles)
  obtain ⟨r, hr, hreport⟩ := (exists_of_mem_mapM hreports).1 file hfile
  obtain ⟨source, hsource, _, _, rfl⟩ := report_eq_ok_iff.mp hreport
  rw [outcome_sourceLines_of_refused hrefused] at hsource
  cases hsource
  exact List.mem_map.mpr ⟨_, List.mem_filter.mpr ⟨hr, rfl⟩, rfl⟩

theorem imports_eq_nil_of_refused {r : FileReport} (hr : r ∈ census.reports) {e : OsError}
    (hrefused : SourceFile.lines fs settings.encoding r.path = .error (.refused e)) :
    r.imports = [] := by
  obtain ⟨subject, -, files, -, findings, himports, hreports⟩ := steps_of_take hcensus
  obtain ⟨file, hfile, hreport⟩ := (exists_of_mem_mapM hreports).2 r hr
  obtain ⟨_, _, _, _, rfl⟩ := report_eq_ok_iff.mp hreport
  show (Assoc.get? file findings.graph.imports).getD [] = []
  cases hget : Assoc.get? file findings.graph.imports with
  | none => rfl
  | some names =>
    obtain ⟨file', -, hfile'⟩ := (exists_of_mem_mapM himports).2 _ (Assoc.mem_of_get? hget)
    obtain rfl : file = file' := fst_of_importsOf hfile'
    have hnothing := outcome_importsOf_of_refused hrefused subject.language
    cases hnothing.symm.trans hfile'
    rfl

/-- A number in a report is negative exactly if it stands for a missing count. -/
theorem toInt_of_mem_reports {r : FileReport} (hr : r ∈ census.reports) {n : LineCount}
    (hn : n = r.sourceLines ∨ some n = r.enhancedLines) : n.toInt < 0 ↔ n.isOk = false := by
  obtain ⟨subject, -, files, -, findings, -, hreports⟩ := steps_of_take hcensus
  obtain ⟨file, -, hreport⟩ := (exists_of_mem_mapM hreports).2 r hr
  obtain ⟨source, hsource, enhanced, henhanced, rfl⟩ := report_eq_ok_iff.mp hreport
  rcases hn with rfl | hn
  · exact SourceFile.toInt_of_measure (measure_of_sourceLines hsource)
  · obtain rfl : some n = enhanced := hn
    exact SourceFile.toInt_of_measure (measure_of_enhancedLines henhanced)

end Taken

/-- The census of a tree is that of the same tree with its unreadable files empty, but that the counts of
these files are missing and say why.  The encoding may be any in which an empty file is an empty text. -/
theorem take_unreadable {emptied : Path → Bool} (hempties : FileSystem.Empties emptied fs fs')
    (refusal : Path → OsError)
    (hrefused : ∀ file, Walked fs settings root file → emptied file = true →
      SourceFile.lines fs settings.encoding file = .error (.refused (refusal file)))
    (hnothing : ∀ name, settings.encoding = .string name → SourceFile.ReadsNothing fs name) :
    (take fs settings root).outcome =
        (mapReports fun r =>
          if emptied r.path then r.uncounted (.ofErrno (refusal r.path).errno) else r) <$>
          (take fs' settings root).outcome ∧
      ∀ census, (take fs settings root).outcome = .ok census →
        (∀ file, Walked fs settings root file → emptied file = true → file ∈ census.failedFiles) ∧
        (∀ r ∈ census.reports, emptied r.path = true → r.imports = []) ∧
        ∀ r ∈ census.reports, ∀ n, (n = r.sourceLines ∨ some n = r.enhancedLines) →
          (n.toInt < 0 ↔ n.isOk = false) := by
  have hcodec : fs.codec = fs'.codec := hempties.codec_eq.symm
  have hempty : ∀ file, Walked fs settings root file → emptied file = true →
      SourceFile.lines fs' settings.encoding file = .ok [] := by
    intro file hwalked hemptied
    obtain ⟨name, hname⟩ := SourceFile.exists_name_of_refused (hrefused file hwalked hemptied)
    have hreads : SourceFile.ReadsNothing fs' name := by
      rw [SourceFile.ReadsNothing, ← SourceFile.decoder_congr hcodec]
      exact hnothing name hname
    rw [hname]
    apply SourceFile.lines_of_readsNothing hreads
    rw [hempties.readSource, if_pos hemptied]
  have hsame : ∀ file, emptied file = false →
      SourceFile.lines fs settings.encoding file = SourceFile.lines fs' settings.encoding file := by
    intro file hemptied
    apply SourceFile.lines_congr hcodec
    rw [hempties.readSource, hemptied]
    rfl
  constructor
  · apply outcome_take_of_skeleton _ hempties.skeleton
    · intro subject _ file hwalked
      exact outcome_importsOf_of_emptied (hsame file) (hrefused file hwalked) (hempty file hwalked)
        subject.language
    · intro subject hsubject file hwalked findings
      exact outcome_report_of_emptied (hsame file) (hrefused file hwalked) (hempty file hwalked)
        (lineComment_of_prepare hsubject) findings
  · intro census hcensus
    refine ⟨?_, ?_, ?_⟩
    · intro file hwalked hemptied
      exact mem_failedFiles_of_refused hcensus hwalked (hrefused file hwalked hemptied)
    · intro r hr hemptied
      exact imports_eq_nil_of_refused hcensus hr
        (hrefused r.path (walked_of_mem_reports hcensus hr) hemptied)
    · intro r hr n hn
      exact toInt_of_mem_reports hcensus hr hn

/-- Two files; the first one breaks off behind an import of the second one. -/
def broken : FileSystem where
  entries := [
    (["tree"], .directory), (["tree", "a"], .directory), (["tree", "b"], .directory),
    (["tree", "a", "A.java"], .file {
      bytes := "import b.B;".toList.map fun c => .ofNat c.toNat
      broken := some .inputOutput }),
    (["tree", "b", "B.java"], .file { bytes := "int b;".toList.map fun c => .ofNat c.toNat })]

theorem prepare_broken :
    (prepare broken .plain ⟨.absolute, ["tree"]⟩).outcome =
      .ok ⟨⟨.absolute, ["tree"]⟩, .java⟩ := by
  cbv

theorem files_broken :
    (Analysis.files broken .plain ⟨.absolute, ["tree"]⟩).outcome =
      .ok [⟨.absolute, ["tree", "a", "A.java"]⟩, ⟨.absolute, ["tree", "b", "B.java"]⟩] := by
  cbv

theorem eq_of_leadsTo_broken {file : Path} (hwalked : Walked broken .plain ⟨.absolute, ["tree"]⟩ file)
    (hemptied : broken.leadsTo file ["tree", "a", "A.java"] = true) :
    file = ⟨.absolute, ["tree", "a", "A.java"]⟩ := by
  obtain ⟨subject, hsubject, files, hfiles, hfile⟩ := hwalked
  rw [prepare_broken] at hsubject
  cases hsubject
  rw [files_broken] at hfiles
  cases hfiles
  rcases List.mem_cons.mp hfile with rfl | hfile
  · rfl
  · obtain rfl := List.mem_singleton.mp hfile
    exact absurd hemptied (by decide +kernel)

theorem lines_broken :
    SourceFile.lines broken (.string "utf-8") ⟨.absolute, ["tree", "a", "A.java"]⟩ =
      .error (.refused ⟨.inputOutput, none⟩) := by
  cbv

theorem isSome_take_broken :
    (take broken .plain ⟨.absolute, ["tree"]⟩).outcome.toOption.isSome = true := by
  cbv

theorem take_unreadable_broken :
    let root : Path := ⟨.absolute, ["tree"]⟩
    let file : Path := ⟨.absolute, ["tree", "a", "A.java"]⟩
    let emptied : Path → Bool := fun p => broken.leadsTo p ["tree", "a", "A.java"]
    let mended := broken.emptyAt ["tree", "a", "A.java"]
    FileSystem.Empties emptied broken mended ∧
      Walked broken .plain root file ∧ emptied file = true ∧
      ∃ census all, (take broken .plain root).outcome = .ok census ∧
        (take mended .plain root).outcome = .ok all ∧
        census = all.mapReports (fun r =>
          if emptied r.path then r.uncounted .readFailure else r) ∧
        file ∈ census.failedFiles ∧ ∀ r ∈ census.reports, emptied r.path = true → r.imports = [] := by
  intro root file emptied mended
  have hempties : FileSystem.Empties emptied broken mended :=
    FileSystem.empties_emptyAt rfl
  have hwalked : Walked broken .plain root file :=
    ⟨_, prepare_broken, _, files_broken, List.mem_cons_self⟩
  have hemptied : emptied file = true := by decide +kernel
  have hrefused : ∀ p, Walked broken .plain root p → emptied p = true →
      SourceFile.lines broken Settings.plain.encoding p = .error (.refused ⟨.inputOutput, none⟩) := by
    intro p hp hpemptied
    rw [eq_of_leadsTo_broken hp hpemptied]
    exact lines_broken
  have hnothing : ∀ name, Settings.plain.encoding = .string name →
      SourceFile.ReadsNothing broken name := by
    intro name hname
    cases hname
    have hknown : Encoding.ofName? "utf-8" = some .utf8 := by decide +kernel
    exact SourceFile.readsNothing_of_known hknown broken
  obtain ⟨census, hcensus⟩ := exists_eq_ok isSome_take_broken
  obtain ⟨hsame, hrest⟩ := take_unreadable hempties (fun _ => ⟨.inputOutput, none⟩)
    hrefused hnothing
  obtain ⟨hfailed, himports, -⟩ := hrest census hcensus
  rw [hcensus] at hsame
  cases hall : (take mended .plain root).outcome with
  | error e =>
    rw [hall] at hsame
    cases hsame
  | ok all =>
    rw [hall] at hsame
    exact ⟨hempties, hwalked, hemptied, census, all, hcensus, rfl, Except.ok.inj hsame,
      hfailed file hwalked hemptied, himports⟩

/-- One file, which may not be opened. -/
def denied : FileSystem where
  entries := [
    (["tree"], .directory), (["tree", "a"], .directory), (["tree", "a", "A.java"], .file {})]
  refusals := [((.read, ⟨.absolute, ["tree", "a", "A.java"]⟩), .denied)]

theorem isSome_take_denied :
    (take denied { Settings.plain with encoding := .string "no-such-encoding" }
      ⟨.absolute, ["tree"]⟩).outcome.toOption.isSome = true := by
  cbv

/-- Nobody knows the encoding, and the census is taken as long as the file cannot be opened. -/
theorem unknown_encoding_hidden :
    let root : Path := ⟨.absolute, ["tree"]⟩
    let file : Path := ⟨.absolute, ["tree", "a", "A.java"]⟩
    let settings := { Settings.plain with encoding := .string "no-such-encoding" }
    let mended := denied.emptyAt ["tree", "a", "A.java"]
    Walked denied settings root file ∧
      SourceFile.lines denied settings.encoding file =
        .error (.refused ⟨.denied, some "/tree/a/A.java"⟩) ∧
      FileSystem.Empties (denied.leadsTo · ["tree", "a", "A.java"]) denied mended ∧
      (∃ census, (take denied settings root).outcome = .ok census) ∧
      (take mended settings root).outcome =
        .error (.defect (.unknownEncoding "no-such-encoding")) := by
  intro root file settings mended
  refine ⟨?_, ?_, ?_, ?_, ?_⟩
  · have hprepare : (prepare denied settings root).outcome = .ok ⟨root, .java⟩ := by cbv
    have hfiles : (Analysis.files denied settings root).outcome = .ok [file] := by cbv
    exact ⟨_, hprepare, _, hfiles, List.mem_singleton_self file⟩
  · cbv
  · exact FileSystem.empties_emptyAt rfl
  · exact exists_eq_ok isSome_take_denied
  · cbv

end Census

end SourceCensus
