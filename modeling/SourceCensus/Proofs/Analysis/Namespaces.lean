import Mathlib
import SourceCensus.Proofs.Analysis.Outcome
import SourceCensus.Proofs.Dotted.Files
import SourceCensus.Proofs.Graph.Dependencies
import SourceCensus.Proofs.Walk.Completeness

/-!
# The namespace of a file

The namespaces of a tree are looked up in its root, where links to directories count and whoever hides names
hides them there too.  The namespace of a file is read off its path, long after a walk has come upon it, which
may enter links or not.  That the two agree rests on how a walk begins:

> a file that is not right in the root lies behind an entry of the root that the walk looked at and took for a
> directory (`mem_files_visit`), and such an entry is a directory for the root as well.

So in every census the namespace of a report is one of those of the census, it is missing exactly for the files
right in the root, and it is not among the direct dependencies of its own files (`take_rootNamespace`).
-/

set_option autoImplicit false

namespace SourceCensus

open Analysis

/-! ## How a walk begins -/

namespace Walk

variable {fs : FileSystem} {options : WalkOptions} {p file : Path} {e : Listed} {t : Trail}

/-- The names lead on from the entry, which is a directory for the walk unless they end there. -/
def GoesBy (fs : FileSystem) (options : WalkOptions) (e : Listed) (rest : List String) : Prop :=
  options.sees e.name = true ∧ (rest ≠ [] → fs.isDirectory options.followLinks e = .ok true)

theorem mem_files_passFile (h : file ∈ (passFile fs options t e).files) :
    file ∈ t.files ∨ file = e.path := by
  unfold passFile at h
  split at h
  · exact .inl h
  · exact .inl h
  · split at h
    · exact .inl h
    · exact .inl (by simpa [WalkEvent.file?] using h)
    · simpa [WalkEvent.file?] using h

section Entries

variable {enter : Path → Trail → Trail}
  (henter : ∀ q s, file ∈ (enter q s).files → file ∈ s.files ∨ ∃ names, names ≠ [] ∧ file = q.under names)

include henter

/-- By one entry a walk finds what lies behind it. -/
theorem mem_files_pass (h : file ∈ (pass fs options enter t e).files) :
    file ∈ t.files ∨ ∃ rest, file = e.path.under rest ∧ GoesBy fs options e rest := by
  by_cases hgoing : t.stopped = none
  · by_cases hseen : options.sees e.name = true
    · rw [pass_of_sees hgoing hseen] at h
      cases hdirectory : fs.isDirectory options.followLinks e with
      | error d =>
        rw [hdirectory] at h
        exact .inl h
      | ok is =>
        rw [hdirectory] at h
        cases is with
        | true =>
          rcases henter e.path t h with hold | ⟨names, -, hnew⟩
          · exact .inl hold
          · exact .inr ⟨names, hnew, hseen, fun _ => hdirectory⟩
        | false =>
          rcases mem_files_passFile h with hold | hnew
          · exact .inl hold
          · exact .inr ⟨[], by rw [hnew, Path.under_nil], hseen, fun hne => absurd rfl hne⟩
    · rw [pass_of_not_sees hseen] at h
      exact .inl h
  · unfold pass at h
    rw [if_pos (Option.isSome_iff_ne_none.mpr hgoing)] at h
    exact .inl h

theorem mem_files_foldl_pass {entries : List Listed}
    (h : file ∈ (entries.foldl (pass fs options enter) t).files) :
    file ∈ t.files ∨ ∃ e ∈ entries, ∃ rest, file = e.path.under rest ∧ GoesBy fs options e rest := by
  induction entries generalizing t with
  | nil => exact .inl h
  | cons e entries ih =>
    rcases ih h with h | ⟨e', he', hnew⟩
    · rcases mem_files_pass henter h with hold | hnew
      · exact .inl hold
      · exact .inr ⟨e, List.mem_cons_self, hnew⟩
    · exact .inr ⟨e', List.mem_cons_of_mem e he', hnew⟩

end Entries

/-- What a walk finds in a directory lies behind one of the entries that the system lists. -/
theorem mem_files_visit (depth : Nat) (h : file ∈ (visit fs options depth p t).files) :
    file ∈ t.files ∨ ∃ entries, fs.list p = .ok entries ∧
      ∃ e ∈ entries, ∃ rest, file = p.under (e.name :: rest) ∧ GoesBy fs options e rest := by
  induction depth generalizing p t with
  | zero => exact .inl h
  | succ depth ih =>
    have hnote {s : Trail} {event : WalkEvent} (hevent : event.file? = none)
        (hs : file ∈ (s.note event).files) : file ∈ s.files := by
      simpa [hevent] using hs
    rw [visit] at h
    cases hstat : fs.stat p with
    | error err =>
      rw [hstat] at h
      exact .inl (hnote rfl h)
    | ok found =>
      rw [hstat] at h
      dsimp only at h
      split at h
      · exact .inl (hnote rfl h)
      · cases hlist : fs.list p with
        | error err =>
          rw [hlist] at h
          exact .inl (hnote rfl h)
        | ok entries =>
          rw [hlist] at h
          have henter : ∀ q s, file ∈ (visit fs options depth q s).files →
              file ∈ s.files ∨ ∃ names, names ≠ [] ∧ file = q.under names := by
            intro q s hs
            rcases ih hs with hold | ⟨_, -, e, -, rest, hnew, -⟩
            · exact .inl hold
            · exact .inr ⟨e.name :: rest, by simp, hnew⟩
          rcases mem_files_foldl_pass henter h with hold | ⟨e, he, rest, rfl, hgoes⟩
          · exact .inl hold
          · obtain ⟨location, -, rfl⟩ := FileSystem.listAt_of_list hlist
            obtain ⟨hpath, -⟩ := FileSystem.of_mem_listAt he
            refine .inr ⟨_, rfl, e, he, rest, ?_, hgoes⟩
            rw [hpath, Path.child_under]

end Walk

/-! ## The namespaces of the root -/

/-- What a walk takes for a directory is one for the root, which follows links anyway. -/
theorem FileSystem.isDirectory_true {fs : FileSystem} {followLinks : Bool} {e : Listed}
    (h : fs.isDirectory followLinks e = .ok true) : fs.isDirectory true e = .ok true := by
  cases followLinks with
  | true => exact h
  | false =>
    unfold isDirectory at h ⊢
    cases he : e.entry with
    | directory => rfl
    | _ =>
      rw [he] at h
      simp at h

/-- The namespaces are the entries of the root that are directories, in order. -/
theorem Root.of_namespaces_eq_ok {fs : FileSystem} (hfs : fs.IsTree) {allowHidden : Bool} {root : Path}
    {names : List String} (h : namespaces fs allowHidden root = .ok names) :
    ∃ entries, fs.list root = .ok entries ∧ names.Pairwise (· < ·) ∧
      ∀ name, name ∈ names ↔ ∃ e ∈ entries, e.name = name ∧ fs.isDirectory true e = .ok true ∧
        (allowHidden || !isHidden name) = true := by
  cases hlist : fs.list root with
  | error err =>
    rw [namespaces, hlist] at h
    cases h
  | ok entries =>
    have hanswer : ∀ e ∈ entries, ∃ is, fs.isDirectory true e = .ok is := by
      intro e he
      cases hdirectory : fs.isDirectory true e with
      | ok is => exact ⟨is, rfl⟩
      | error d =>
        obtain ⟨d', hd'⟩ := directories_of_error he hdirectory
        rw [namespaces, hlist] at h
        simp only [hd'] at h
        cases h
    obtain ⟨names', hok, horder, hmem⟩ := exists_namespaces hfs hlist hanswer allowHidden
    cases hok.symm.trans h
    exact ⟨entries, rfl, horder, hmem⟩

/-! ## The namespaces of the reports -/

/-- No file is said to import from the namespace that it lies in. -/
theorem Analysis.not_mem_direct {imports : Assoc Path (List String)} {root file : Path}
    {namespaces : List String} {extension ns : String} (source : LineCount) (enhanced : Option LineCount)
    (hown : file.namespaceBelow? root = some ns) :
    let graph := DependencyGraph.ofImports imports root namespaces extension
    ns ∉ (assemble root ⟨graph, graph.closure⟩ file source enhanced).direct := by
  intro graph hmem
  have hdirect : ns ∈ (Assoc.get? file graph.direct).getD [] := mem_sortedAt.mp hmem
  rw [DependencyGraph.get?_direct] at hdirect
  cases hfile : Assoc.get? file imports with
  | none => simp [hfile] at hdirect
  | some imported =>
    rw [hfile, Option.map_some, Option.getD_some, DependencyGraph.mem_directOf] at hdirect
    exact hdirect.2.1 hown

namespace Census

variable {fs : FileSystem} {settings : Settings} {root : Path} {census : Census}

/-- A file right in the root has no namespace.  Any other one has its first directory, which is among the
namespaces of the census and not among what the file is said to import from. -/
theorem take_rootNamespace (hfs : fs.IsTree) (h : (take fs settings root).outcome = .ok census) :
    census.namespaces.Pairwise (· < ·) ∧
    ∀ r ∈ census.reports, ∃ first rest, r.path = census.root.under (first :: rest) ∧
      (r.rootNamespace = none ↔ rest = []) ∧
      ∀ ns, r.rootNamespace = some ns → ns = first ∧ ns ∈ census.namespaces ∧ ns ∉ r.direct := by
  obtain ⟨subject, -, names, hnames, files, hfiles, imports, -, reports, hreports, rfl⟩ :=
    take_eq_ok_iff.mp h
  rw [outcome_namespaces] at hnames
  obtain ⟨entries, hlist, horder, hmem⟩ := Root.of_namespaces_eq_ok hfs hnames
  refine ⟨horder, fun r hr => ?_⟩
  obtain ⟨file, hfile, hreport⟩ := (exists_of_mem_mapM hreports).2 r hr
  obtain ⟨source, -, enhanced, -, rfl⟩ := report_eq_ok_iff.mp hreport
  -- The walk came upon the file by an entry of the same listing that the namespaces are taken from.
  obtain ⟨-, rfl⟩ := outcome_files_eq_ok_iff.mp hfiles
  rcases Walk.mem_files_visit (Walk.maxDepth fs) hfile with hnone |
    ⟨entries', hlist', e, he, rest, rfl, hseen, hdirectory⟩
  · exact absurd hnone List.not_mem_nil
  cases hlist.symm.trans hlist'
  have hnamespace := Path.namespaceBelow?_under subject.root e.name rest
  refine ⟨e.name, rest, rfl, ?_, fun ns hns => ?_⟩
  · show (subject.root.under (e.name :: rest)).namespaceBelow? subject.root = none ↔ rest = []
    rw [hnamespace]
    simp
  · have hown : (subject.root.under (e.name :: rest)).namespaceBelow? subject.root = some ns := hns
    have hfirst : rest ≠ [] ∧ e.name = ns := by
      rw [hnamespace] at hown
      split at hown
      · cases hown
      · next hrest => exact ⟨hrest, Option.some.inj hown⟩
    obtain ⟨hrest, rfl⟩ := hfirst
    refine ⟨rfl, ?_, not_mem_direct source enhanced hown⟩
    exact (hmem e.name).mpr ⟨e, he, rfl, FileSystem.isDirectory_true (hdirectory hrest), hseen⟩

/-- A tree with a file right in its root, one in a directory, and a directory that nothing is in. -/
def sparse : FileSystem where
  entries := [
    (["tree"], .directory), (["tree", "Top.java"], .file {}), (["tree", "a"], .directory),
    (["tree", "a", "A.java"], .file { bytes := "import b.B;".toList.map fun c => .ofNat c.toNat }),
    (["tree", "b"], .directory)]

theorem rootNamespaces_sparse :
    ((take sparse .plain ⟨.absolute, ["tree"]⟩).outcome.toOption.map fun census =>
      census.reports.map (·.rootNamespace)) = some [none, some "a"] := by
  cbv

theorem take_rootNamespace_sparse :
    let root : Path := ⟨.absolute, ["tree"]⟩
    sparse.IsTree ∧ ∃ census, (take sparse .plain root).outcome = .ok census ∧
      census.reports.map (·.rootNamespace) = [none, some "a"] ∧
      census.namespaces.Pairwise (· < ·) ∧
      ∀ r ∈ census.reports, ∃ first rest, r.path = census.root.under (first :: rest) ∧
        (r.rootNamespace = none ↔ rest = []) ∧
        ∀ ns, r.rootNamespace = some ns → ns = first ∧ ns ∈ census.namespaces ∧ ns ∉ r.direct := by
  intro root
  have hfs : sparse.IsTree := ⟨by decide +kernel, by decide +kernel⟩
  obtain ⟨census, hcensus, hreports⟩ := exists_of_toOption_map rootNamespaces_sparse
  exact ⟨hfs, census, hcensus, hreports, take_rootNamespace hfs hcensus⟩

end Census

end SourceCensus
