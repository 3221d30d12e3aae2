import Mathlib
import SourceCensus.Proofs.Analysis.Outcome
import SourceCensus.Proofs.Graph.Dependencies
import SourceCensus.Proofs.Graph.Fewer
import SourceCensus.Proofs.Walk.Excluding

/-!
# A census with files left out

Globs name files that are left out of a census.  Compare two censuses of one tree that differ in nothing but
that:

> the census with globs holds the reports of the other one, in the same order, on the files that no glob
> fits.  They say the same, except that a file may depend on fewer namespaces (`take_excluding`).

The namespaces are looked up in the root and not among the files, so they stay.  The walks are at the same
place all the time (`Walk.ofRoot_excluding`), each file is read and counted alone, and only the closure of
the graph looks at several files at once.  A dependency can go away, because the file that it was handed on
by is left out; none can come (`DependencyGraph.closureOf_subset`).
-/

set_option autoImplicit false

namespace SourceCensus

open Analysis

/-- `r` says what `s` says, of the same file, but may name fewer dependencies. -/
structure FileReport.Within (r s : FileReport) : Prop where
  path : r.path = s.path
  sourceLines : r.sourceLines = s.sourceLines
  enhancedLines : r.enhancedLines = s.enhancedLines
  imports : r.imports = s.imports
  rootNamespace : r.rootNamespace = s.rootNamespace
  direct : r.direct = s.direct
  dependencies : r.dependencies ⊆ s.dependencies

namespace Analysis

/-- The settings without globs. -/
def withoutGlobs (settings : Settings) : Settings := { settings with excludePatterns := [] }

variable {fs : FileSystem} {settings : Settings} {subject : Subject}

theorem walkOptions_eq_excluding {globs : List Glob}
    (hglobs : settings.excludePatterns.map Glob.ofValue = globs.map .ok) :
    walkOptions settings = Walk.excluding (walkOptions (withoutGlobs settings)) globs := by
  rw [walkOptions, hglobs]
  rfl

variable {imports : Assoc Path (List String)} {root : Path} {namespaces : List String}
  {extension : String}

/-- What a report says when other files are left out. -/
theorem within_assemble {keep : Path → Bool} {file : Path} (hkeep : keep file = true)
    (source : LineCount) (enhanced : Option LineCount) :
    let fewer := DependencyGraph.ofImports (imports.filter fun entry => keep entry.1) root namespaces
      extension
    let graph := DependencyGraph.ofImports imports root namespaces extension
    (assemble root ⟨fewer, fewer.closure⟩ file source enhanced).Within
      (assemble root ⟨graph, graph.closure⟩ file source enhanced) := by
  intro fewer graph
  refine ⟨rfl, rfl, rfl, ?_, rfl, ?_, ?_⟩
  · show (Assoc.get? file (imports.filter fun entry => keep entry.1)).getD [] =
      (Assoc.get? file imports).getD []
    rw [Assoc.get?_filter_key, if_pos hkeep]
  · show sortedAt fewer.direct file = sortedAt graph.direct file
    rw [sortedAt, sortedAt, DependencyGraph.get?_direct_filter keep hkeep]
  · intro ns hns
    have hfewer : imports.filter (fun entry => keep entry.1) ⊆ imports := List.filter_subset_self _
    exact mem_sortedAt.mpr (DependencyGraph.closureOf_subset hfewer file (mem_sortedAt.mp hns))

/-! ## The steps with files left out -/

variable {files : List Path}

theorem files_of_withoutGlobs {globs : List Glob}
    (hglobs : settings.excludePatterns.map Glob.ofValue = globs.map .ok)
    (h : (Analysis.files fs (withoutGlobs settings) root).outcome = .ok files) :
    (Analysis.files fs settings root).outcome =
      .ok (files.filter fun file => !Glob.excludes globs file) := by
  obtain ⟨hstopped, rfl⟩ := outcome_files_eq_ok_iff.mp h
  have hbare : (walkOptions (withoutGlobs settings)).globs = [] := rfl
  obtain ⟨hstopped', hfiles'⟩ := Walk.ofRoot_excluding hbare root
  rw [outcome_files_eq_ok_iff, walkOptions_eq_excluding hglobs]
  exact ⟨hstopped'.trans hstopped, hfiles'⟩

theorem mapM_importsOf_filter (keep : Path → Bool) {lang : Language} {encoding : Value}
    (h : files.mapM (fun file => (importsOf fs lang encoding file).outcome) = .ok imports) :
    (files.filter keep).mapM (fun file => (importsOf fs lang encoding file).outcome) =
      .ok (imports.filter fun entry => keep entry.1) := by
  rw [mapM_eq_ok_iff] at h ⊢
  refine List.rel_filter ?_ h
  intro file entry hentry
  show keep file = true ↔ keep entry.1 = true
  rw [fst_of_importsOf hentry]

/-- Each file is counted alone, and what is found before that only loses dependencies. -/
theorem mapM_report_filter (keep : Path → Bool) {reports : List FileReport}
    (h : let graph := DependencyGraph.ofImports imports subject.root namespaces extension
      files.mapM (fun file =>
        (report fs settings subject ⟨graph, graph.closure⟩ file).outcome) = .ok reports) :
    let fewer := DependencyGraph.ofImports (imports.filter fun entry => keep entry.1) subject.root
      namespaces extension
    ∃ kept, (files.filter keep).mapM (fun file =>
        (report fs settings subject ⟨fewer, fewer.closure⟩ file).outcome) = .ok kept ∧
      List.Forall₂ FileReport.Within kept (reports.filter fun r => keep r.path) := by
  intro fewer
  rw [mapM_eq_ok_iff] at h
  have hkept := List.rel_filter (p := keep) (q := fun r => keep r.path) ?_ h
  · have hkeep : ∀ file ∈ files.filter keep, keep file = true :=
      fun file hfile => (List.mem_filter.mp hfile).2
    refine exists_mapM_eq_ok (((List.forall₂_and_left _ _).mpr ⟨hkeep, hkept⟩).imp ?_)
    rintro file r ⟨hfile, hr⟩
    obtain ⟨source, hsource, enhanced, henhanced, rfl⟩ := report_eq_ok_iff.mp hr
    exact ⟨_, report_eq_ok_iff.mpr ⟨source, hsource, enhanced, henhanced, rfl⟩,
      within_assemble hfile source enhanced⟩
  · intro file r hr
    obtain ⟨source, -, enhanced, -, rfl⟩ := report_eq_ok_iff.mp hr
    exact Iff.rfl

end Analysis

namespace Census

/-- A census with globs holds the reports of the census without them on the files that no glob fits, with
perhaps fewer dependencies. -/
theorem take_excluding {fs : FileSystem} {settings : Settings} {root : Path} {globs : List Glob}
    (hglobs : settings.excludePatterns.map Glob.ofValue = globs.map .ok) {all : Census}
    (hall : (take fs (withoutGlobs settings) root).outcome = .ok all) :
    ∃ census, (take fs settings root).outcome = .ok census ∧
      census.root = all.root ∧ census.namespaces = all.namespaces ∧
      List.Forall₂ FileReport.Within census.reports
        (all.reports.filter fun r => !Glob.excludes globs r.path) := by
  obtain ⟨subject, hsubject, names, hnames, files, hfiles, imports, himports, reports, hreports,
    rfl⟩ := take_eq_ok_iff.mp hall
  let keep : Path → Bool := fun file => !Glob.excludes globs file
  have hfiles' := files_of_withoutGlobs hglobs hfiles
  have himports' := mapM_importsOf_filter keep himports
  obtain ⟨kept, hkept, hwithin⟩ := mapM_report_filter keep hreports
  refine ⟨⟨subject.root, names, kept, collisionsOf (files.filter keep)⟩, ?_, rfl, rfl, hwithin⟩
  exact take_eq_ok_iff.mpr
    ⟨subject, hsubject, names, hnames, files.filter keep, hfiles', _, himports', kept, hkept, rfl⟩

/-- A tree of two files; the first one imports the second one, which imports from `c`. -/
def relay : FileSystem where
  entries := [
    (["tree"], .directory), (["tree", "a"], .directory), (["tree", "b"], .directory),
    (["tree", "c"], .directory),
    (["tree", "a", "A.java"], .file { bytes := "import b.B;".toList.map fun c => .ofNat c.toNat }),
    (["tree", "b", "B.java"], .file { bytes := "import c.C;".toList.map fun c => .ofNat c.toNat })]

theorem isSome_take_relay :
    (take relay .plain ⟨.absolute, ["tree"]⟩).outcome.toOption.isSome = true := by
  cbv

theorem take_excluding_relay :
    let root : Path := ⟨.absolute, ["tree"]⟩
    let settings := { Settings.plain with excludePatterns := [.string "B.java"] }
    let globs : List Glob := [⟨.relative, [Wildcard.ofChars "B.java".toList]⟩]
    settings.excludePatterns.map Glob.ofValue = globs.map .ok ∧
      ∃ all census, (take relay (withoutGlobs settings) root).outcome = .ok all ∧
        (take relay settings root).outcome = .ok census ∧
        List.Forall₂ FileReport.Within census.reports
          (all.reports.filter fun r => !Glob.excludes globs r.path) := by
  intro root settings globs
  have hglobs : settings.excludePatterns.map Glob.ofValue = globs.map .ok := by decide +kernel
  obtain ⟨all, hall⟩ := exists_eq_ok isSome_take_relay
  obtain ⟨census, hcensus, -, -, hwithin⟩ := take_excluding hglobs hall
  exact ⟨hglobs, all, census, hall, hcensus, hwithin⟩

end Census

end SourceCensus
