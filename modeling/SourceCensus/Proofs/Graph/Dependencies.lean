import SourceCensus.Analysis
import SourceCensus.Proofs.Graph.Construction
import SourceCensus.Proofs.Graph.Reachability
import SourceCensus.Proofs.Path.Order

/-!
# What the reported dependencies mean

A report lists the namespaces that its file depends on.  The list comes out of four steps: the namespaces of
each file, the edges from a file to its importers, the search along these edges, and the sorting at the
end.  None of them speaks of what a reader of the report wants to know, which is a statement about imports
alone:

> a file depends on a namespace when a chain of imports leads from it to a file that imports from the
> namespace and does not lie in it.

`assemble_dependencies` says that the report lists these namespaces and no others, each once and in
ascending order.  The chain runs from importer to imported, against the edges of the graph.  It may run in a
circle, so a file can come to depend on the namespace it lies in.
-/

set_option autoImplicit false

namespace SourceCensus

/-! ## Chains of imports -/

section Chain

variable (files : Assoc Path (List String)) (root : Path) (extension : String)

/-- The file `f` imports the file `g`, another known one: an import of `f` stands for `g`. -/
def ImportsFile (f g : Path) : Prop :=
  g ∈ files.keys ∧ g ≠ f ∧
    ∃ names, (f, names) ∈ files ∧ ∃ name ∈ names, Dotted.path? name root extension = some g

/-- The file `f` imports from the namespace `ns` and does not lie in it: an import of `f` is `ns` or goes on
behind it with a dot. -/
def ImportsFrom (f : Path) (ns : String) : Prop :=
  f.namespaceBelow? root ≠ some ns ∧
    ∃ names, (f, names) ∈ files ∧ ∃ name ∈ names, name = ns ∨ ∃ rest : String, name = ns ++ "." ++ rest

/-- Imports lead from the file `f` to the file `g`, by any number of links. -/
def ImportChain : Path → Path → Prop := Relation.ReflTransGen (ImportsFile files root extension)

end Chain

variable {files : Assoc Path (List String)} {root : Path} {namespaces : List String}
  {extension : String}

/-! ## The graph of a tree -/

namespace DependencyGraph

/-- Dependencies travel against the chains of imports. -/
theorem reaches_ofImports_iff {source node : Path} :
    (ofImports files root namespaces extension).Reaches source node ↔
      ImportChain files root extension node source := by
  have hswap : (fun node next => next ∈ (ofImports files root namespaces extension).dependentsOf node)
      = Function.swap (ImportsFile files root extension) := by
    funext imported importer
    exact propext mem_dependentsOf_ofImports
  rw [Reaches, hswap, Relation.reflTransGen_swap, ImportChain]

theorem mem_direct_iff {file : Path} {names : List String} {ns : String} (h : files.keys.Nodup)
    (hfile : (file, names) ∈ files) :
    ns ∈ directOf root namespaces (file, names) ↔ ns ∈ namespaces ∧ ImportsFrom files root file ns := by
  rw [mem_directOf, ImportsFrom]
  simp only [Dotted.isUnder_iff]
  refine and_congr_right fun _ => and_congr_right fun _ => ⟨fun hunder => ⟨names, hfile, hunder⟩, ?_⟩
  rintro ⟨names', hfile', hunder⟩
  -- A table has one list of imports for each file.
  have hsame : some names = some names' :=
    ((Assoc.get?_eq_some_iff h).mpr hfile).symm.trans ((Assoc.get?_eq_some_iff h).mpr hfile')
  obtain rfl := Option.some.inj hsame
  exact hunder

/-- The closed dependencies of a file are what the files at the ends of its chains import from. -/
theorem mem_closureOf_ofImports {file : Path} {ns : String} (h : files.keys.Nodup) :
    ns ∈ (ofImports files root namespaces extension).closureOf file ↔
      ns ∈ namespaces ∧
        ∃ last, ImportChain files root extension file last ∧ ImportsFrom files root last ns := by
  rw [mem_closureOf_iff]
  constructor
  · rintro ⟨source, hsource, hreach, hns⟩
    obtain ⟨⟨last, names⟩, hlast, rfl⟩ := List.mem_map.mp hsource
    obtain ⟨hmem, hfrom⟩ := (mem_direct_iff h hlast).mp hns
    exact ⟨hmem, last, reaches_ofImports_iff.mp hreach, hfrom⟩
  · rintro ⟨hmem, last, hchain, hfrom⟩
    obtain ⟨names, hlast, -⟩ := hfrom.2
    exact ⟨_, mem_direct_ofImports hlast, reaches_ofImports_iff.mpr hchain,
      (mem_direct_iff h hlast).mpr ⟨hmem, hfrom⟩⟩

theorem nodup_direct_ofImports {entry : Path × List String}
    (h : entry ∈ (ofImports files root namespaces extension).direct) : entry.2.Nodup := by
  obtain ⟨file, -, rfl⟩ := List.mem_map.mp h
  exact Resolution.nodup_ofImports

end DependencyGraph

/-! ## The report -/

namespace Analysis

theorem mem_sortedAt {t : Assoc Path (List String)} {file : Path} {ns : String} :
    ns ∈ sortedAt t file ↔ ns ∈ (Assoc.get? file t).getD [] :=
  List.mem_mergeSort

theorem pairwise_sortedAt {t : Assoc Path (List String)} {file : Path}
    (h : ((Assoc.get? file t).getD []).Nodup) : (sortedAt t file).Pairwise (· < ·) :=
  pairwise_lt_mergeSort h

/-- The report on a file lists, in ascending order and each once, the namespaces at the ends of its chains
of imports, and as direct ones those that the file imports from itself. -/
theorem assemble_dependencies (h : files.keys.Nodup) {file : Path} (hfile : file ∈ files.keys)
    (source : LineCount) (enhanced : Option LineCount) :
    let graph := DependencyGraph.ofImports files root namespaces extension
    let report := assemble root ⟨graph, graph.closure⟩ file source enhanced
    (report.dependencies.Pairwise (· < ·) ∧
      ∀ ns, ns ∈ report.dependencies ↔ ns ∈ namespaces ∧
        ∃ last, ImportChain files root extension file last ∧ ImportsFrom files root last ns) ∧
    (report.direct.Pairwise (· < ·) ∧
      ∀ ns, ns ∈ report.direct ↔ ns ∈ namespaces ∧ ImportsFrom files root file ns) := by
  intro graph report
  obtain ⟨⟨file', names⟩, hentry, rfl⟩ := List.mem_map.mp hfile
  have hdirect : (Assoc.get? file' graph.direct).getD [] =
      DependencyGraph.directOf root namespaces (file', names) := by
    rw [DependencyGraph.get?_direct_ofImports h hentry, Option.getD_some]
  refine ⟨⟨?_, fun ns => ?_⟩, ?_, fun ns => ?_⟩
  · exact pairwise_sortedAt
      (graph.nodup_closureOf (fun _ => DependencyGraph.nodup_direct_ofImports) file')
  · exact mem_sortedAt.trans (DependencyGraph.mem_closureOf_ofImports h)
  · refine pairwise_sortedAt ?_
    rw [hdirect]
    exact Resolution.nodup_ofImports
  · refine mem_sortedAt.trans ?_
    rw [hdirect]
    exact DependencyGraph.mem_direct_iff h hentry

def importRing : Assoc Path (List String) := [
  (⟨.absolute, ["tree", "a", "A.java"]⟩, ["b.B", "b.B"]),
  (⟨.absolute, ["tree", "b", "B.java"]⟩, ["a.A", "c.Gone"])]

/-- Around a ring of imports the first file comes to depend on the namespace that it lies in. -/
theorem assemble_dependencies_ring :
    let root : Path := ⟨.absolute, ["tree"]⟩
    let file : Path := ⟨.absolute, ["tree", "a", "A.java"]⟩
    let graph := DependencyGraph.ofImports importRing root ["a", "b", "c"] ".java"
    importRing.keys.Nodup ∧ file ∈ importRing.keys ∧
      "a" ∈ (assemble root ⟨graph, graph.closure⟩ file (.counted 1) none).dependencies := by
  intro root file graph
  refine ⟨by decide, by decide, ?_⟩
  refine ((assemble_dependencies (by decide) (by decide) (.counted 1) none).1.2 "a").mpr ?_
  refine ⟨by decide, ⟨.absolute, ["tree", "b", "B.java"]⟩, .single ?_, ?_⟩
  · exact ⟨by decide, by decide, ["b.B", "b.B"], by decide, "b.B", by decide, by decide +kernel⟩
  · exact ⟨by decide, ["a.A", "c.Gone"], by decide, "a.A", by decide, Or.inr ⟨"A", by decide⟩⟩

end Analysis

end SourceCensus
