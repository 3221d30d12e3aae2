import Mathlib.Algebra.BigOperators.Group.List.Basic
import Mathlib.Algebra.GroupWithZero.Nat
import Mathlib.Data.List.Nodup
import SourceCensus.Proofs.Graph.Construction

/-!
# The edges of a dependency graph, one by one

`mem_dependentsOf_ofImports` says which files import a file.  The lists of the graph say more: an importer
stands in them once for each of its imports that stands for the file, and importers come in file order.  This
file counts.

> the list of a file is each other file in turn, as often as an import of it stands for the file
> (`importers_edges`), and the lists together are as long as there are edges (`sum_length_importers`).

The graph is defined by picking the edges of each file out of all edges.  One can also go through the imports
once and put each importer at the end of the list that it belongs to, which changes the lists of other files
than the one that is read.  `Filling` is that loop.  What it keeps is that the lists so far are those of the
edges so far (`Filling.readImport_ofEdges`), whichever of the three reasons an import is dropped for; and so
it ends with the lists of the graph (`Filling.ofFiles_eq`).
-/

set_option autoImplicit false

namespace SourceCensus.DependencyGraph

variable {files : Assoc Path (List String)} {known : List Path} {root : Path} {namespaces : List String}
  {extension : String}

/-! ## Counting edges -/

section Importers

variable {Node : Type} [DecidableEq Node] {node : Node}

theorem importers_append (edges edges' : List (Edge Node)) :
    importers (edges ++ edges') node = importers edges node ++ importers edges' node := by
  simp only [importers, List.filter_append, List.map_append]

theorem importers_singleton (edge : Edge Node) :
    importers [edge] node = if edge.imported = node then [edge.importer] else [] := by
  by_cases h : edge.imported = node <;> simp [importers, h]

/-- Edges that all begin at one of the nodes are shared out among the lists of these. -/
theorem sum_length_importers {nodes : List Node} (h : nodes.Nodup) {edges : List (Edge Node)}
    (hedges : ∀ edge ∈ edges, edge.imported ∈ nodes) :
    (nodes.map fun node => (importers edges node).length).sum = edges.length := by
  induction edges with
  | nil => simp [importers]
  | cons edge edges ih =>
    rw [List.forall_mem_cons] at hedges
    have hfirst : (nodes.map fun node => (importers [edge] node).length).sum = 1 := by
      rw [List.sum_map_eq_nsmul_single edge.imported, List.count_eq_one_of_mem h hedges.1,
        importers_singleton, if_pos rfl]
      · rfl
      · intro node hne _
        rw [importers_singleton, if_neg (Ne.symm hne)]
        rfl
    have hsplit (node : Node) : (importers (edge :: edges) node).length =
        (importers [edge] node).length + (importers edges node).length := by
      rw [← List.length_append, ← importers_append, List.singleton_append]
    simp only [hsplit, List.sum_map_add, hfirst, ih hedges.2, List.length_cons, Nat.add_comm 1]

end Importers

theorem edgesOf_cons (importer : Path) (name : String) (names : List String) :
    edgesOf known root extension (importer, name :: names) =
      edgesOf known root extension (importer, [name]) ++ edgesOf known root extension (importer, names) :=
  List.filterMap_append (l := [name])

/-- A single import makes one edge, or it stands for no known file but the importer and makes none. -/
theorem edgesOf_singleton (known : List Path) (root : Path) (extension : String) (importer : Path)
    (name : String) :
    (∃ target ∈ known, target ≠ importer ∧ Dotted.path? name root extension = some target ∧
        edgesOf known root extension (importer, [name]) = [⟨target, importer⟩]) ∨
      (∀ target ∈ known, Dotted.path? name root extension = some target → target = importer) ∧
        edgesOf known root extension (importer, [name]) = [] := by
  cases hpath : Dotted.path? name root extension with
  | none => simp [edgesOf, hpath]
  | some target =>
    by_cases hmakes : target ∈ known ∧ target ≠ importer
    · exact Or.inl ⟨target, hmakes.1, hmakes.2, rfl, by simp [edgesOf, hpath, hmakes]⟩
    · refine Or.inr ⟨?_, ?_⟩
      · intro other hknown hsame
        obtain rfl := Option.some.inj hsame
        exact not_not.mp fun hne => hmakes ⟨hknown, hne⟩
      · by_cases hknown : target ∈ known <;> simp_all [edgesOf]

/-- The edges of one file lead to it from the files that its imports stand for. -/
theorem importers_edgesOf {target : Path} (hknown : target ∈ known) (importer : Path) (names : List String) :
    importers (edgesOf known root extension (importer, names)) target =
      if importer = target then []
      else List.replicate (names.countP fun name => Dotted.path? name root extension = some target) importer := by
  induction names with
  | nil => simp [edgesOf, importers]
  | cons name names ih =>
    rw [edgesOf_cons, importers_append, ih, List.countP_cons]
    rcases edgesOf_singleton known root extension importer name with
      ⟨target', -, hne, hpath, hedge⟩ | ⟨hnone, hedge⟩
    · rw [hedge, importers_singleton]
      by_cases hsame : target' = target
      · subst hsame
        simp [hpath, Ne.symm hne, List.replicate_succ]
      · simp [hpath, hsame]
    · rw [hedge]
      by_cases hself : importer = target
      · simp [hself, importers]
      · have hother : Dotted.path? name root extension ≠ some target :=
          fun hpath => hself (hnone target hknown hpath).symm
        simp [hself, hother, importers]

theorem importers_edges {target : Path} (hknown : target ∈ files.keys) :
    importers (edges files root extension) target =
      files.flatMap fun file =>
        if file.1 = target then []
        else List.replicate (file.2.countP fun name => Dotted.path? name root extension = some target)
          file.1 := by
  unfold edges
  generalize files.keys = known at hknown
  induction files with
  | nil => rfl
  | cons file files ih => rw [List.flatMap_cons, importers_append, importers_edgesOf hknown, ih, List.flatMap_cons]

/-! ## Filling the lists -/

/-- The lists of importers while the imports are gone through, and the edges made so far. -/
structure Filling where
  dependents : Assoc Path (List Path)
  edgeCount : Nat

namespace Filling

/-- The importer at the end of the list of the target. -/
def add (target importer : Path) (s : Filling) : Filling where
  dependents := s.dependents.map fun entry =>
    (entry.1, if entry.1 = target then entry.2 ++ [importer] else entry.2)
  edgeCount := s.edgeCount + 1

def readImport (root : Path) (extension : String) (importer : Path) (s : Filling) (name : String) : Filling :=
  match Dotted.path? name root extension with
  | none => s
  | some target => if target = importer || !s.dependents.keys.contains target then s else s.add target importer

def readFile (root : Path) (extension : String) (s : Filling) (file : Path × List String) : Filling :=
  file.2.foldl (readImport root extension file.1) s

/-- The lists of all files, empty at first, behind the imports of all files. -/
def ofFiles (files : Assoc Path (List String)) (root : Path) (extension : String) : Filling :=
  files.foldl (readFile root extension) ⟨files.keys.map fun file => (file, []), 0⟩

def ofEdges (known : List Path) (edges : List (Edge Path)) : Filling where
  dependents := known.map fun file => (file, importers edges file)
  edgeCount := edges.length

theorem keys_ofEdges (edges : List (Edge Path)) : (ofEdges known edges).dependents.keys = known := by
  simp [ofEdges, Assoc.keys, Function.comp_def]

theorem add_ofEdges (edges : List (Edge Path)) (target importer : Path) :
    (ofEdges known edges).add target importer = ofEdges known (edges ++ [⟨target, importer⟩]) := by
  simp only [add, ofEdges, List.map_map, List.length_append, List.length_singleton, Filling.mk.injEq, and_true]
  refine List.map_congr_left fun file _ => ?_
  rw [importers_append, importers_singleton]
  by_cases hfile : file = target
  · simp [hfile]
  · simp [hfile, Ne.symm hfile]

/-- One import more: the lists are those of the edges with the one, if any, that it makes. -/
theorem readImport_ofEdges (edges : List (Edge Path)) (importer : Path) (name : String) :
    readImport root extension importer (ofEdges known edges) name =
      ofEdges known (edges ++ edgesOf known root extension (importer, [name])) := by
  unfold readImport
  rcases edgesOf_singleton known root extension importer name with
    ⟨target, hknown, hne, hpath, hedge⟩ | ⟨hnone, hedge⟩
  · simp [hpath, hedge, keys_ofEdges, hknown, hne, add_ofEdges]
  · rw [hedge, List.append_nil]
    split
    · rfl
    · next target hpath =>
      have hdropped : target ∈ known → target = importer := fun hknown => hnone target hknown hpath
      refine if_pos ?_
      rw [keys_ofEdges]
      by_cases hknown : target ∈ known
      · simp [hdropped hknown]
      · simp [hknown]

theorem readFile_ofEdges (edges : List (Edge Path)) (file : Path × List String) :
    readFile root extension (ofEdges known edges) file =
      ofEdges known (edges ++ edgesOf known root extension file) := by
  obtain ⟨importer, names⟩ := file
  unfold readFile
  induction names generalizing edges with
  | nil => simp [edgesOf]
  | cons name names ih =>
    rw [List.foldl_cons, readImport_ofEdges, ih, edgesOf_cons importer name names, List.append_assoc]

theorem ofFiles_eq (files : Assoc Path (List String)) (root : Path) (extension : String) :
    ofFiles files root extension = ofEdges files.keys (edges files root extension) := by
  have hrun (known : List Path) (done : List (Edge Path)) (rest : Assoc Path (List String)) :
      rest.foldl (readFile root extension) (ofEdges known done) =
        ofEdges known (done ++ rest.flatMap (edgesOf known root extension)) := by
    induction rest generalizing done with
    | nil => simp
    | cons file rest ih => rw [List.foldl_cons, readFile_ofEdges, ih, List.flatMap_cons, List.append_assoc]
  exact hrun files.keys [] files

end Filling

/-! ## The graph -/

/-- The graph has the files of the table as nodes, in their order.  A file has as direct the namespaces that
an import of it lies under, its own left out; its list is each other file in turn, as often as an import of
that file stands for it; and the edges are as many as the entries of all lists.  No file is in its own list,
and no file in a list is unknown.  A loop that fills the lists import by import ends with the same ones. -/
theorem ofImports_entries (h : files.keys.Nodup) :
    let graph := ofImports files root namespaces extension
    (graph.direct.keys = files.keys ∧ graph.dependents.keys = files.keys ∧ graph.imports = files) ∧
    (∀ file names, (file, names) ∈ files → ∃ direct, Assoc.get? file graph.direct = some direct ∧
      direct.Nodup ∧ ∀ ns, ns ∈ direct ↔ ns ∈ namespaces ∧ file.namespaceBelow? root ≠ some ns ∧
        ∃ name ∈ names, name = ns ∨ ∃ rest : String, name = ns ++ "." ++ rest) ∧
    (∀ target ∈ files.keys, Assoc.get? target graph.dependents = some (files.flatMap fun file =>
      if file.1 = target then []
      else List.replicate (file.2.countP fun name => Dotted.path? name root extension = some target)
        file.1)) ∧
    graph.edgeCount = (graph.dependents.map fun entry => entry.2.length).sum ∧
    (∀ file list, Assoc.get? file graph.dependents = some list →
      file ∉ list ∧ ∀ importer ∈ list, importer ∈ files.keys) ∧
    Filling.ofFiles files root extension = ⟨graph.dependents, graph.edgeCount⟩ := by
  intro graph
  have hdependents : graph.dependents =
      files.keys.map fun file => (file, importers (edges files root extension) file) := by
    simp [graph, ofImports, Assoc.keys, Function.comp_def]
  have hknown : ∀ edge ∈ edges files root extension, edge.imported ∈ files.keys :=
    fun edge hedge => (mem_edges.mp hedge).1
  refine ⟨⟨?_, ?_, rfl⟩, fun file names hfile => ?_, fun target htarget => ?_, ?_, ?_, ?_⟩
  · simp [graph, ofImports, Assoc.keys, Function.comp_def]
  · simp [hdependents, Assoc.keys, Function.comp_def]
  · refine ⟨_, get?_direct_ofImports h hfile, Resolution.nodup_ofImports, fun ns => ?_⟩
    simpa only [Dotted.isUnder_iff] using mem_directOf
  · have hget : Assoc.get? target graph.dependents =
        some (importers (edges files root extension) target) :=
      (Assoc.get?_map_key _ target files).trans (if_pos htarget)
    rw [hget, importers_edges htarget]
  · rw [hdependents, List.map_map]
    exact (sum_length_importers h hknown).symm
  · intro file list hlist
    have hmem (importer : Path) (himporter : importer ∈ list) :
        importer ∈ graph.dependentsOf file := by rwa [dependentsOf, hlist]
    refine ⟨fun hself => ?_, fun importer himporter => ?_⟩
    · exact (mem_dependentsOf_ofImports.mp (hmem file hself)).2.1 rfl
    · obtain ⟨-, -, names, hnames, -⟩ := mem_dependentsOf_ofImports.mp (hmem importer himporter)
      exact Assoc.mem_keys_of_mem hnames
  · rw [Filling.ofFiles_eq, hdependents]
    rfl

/-- Three files; the second one imports the first twice, itself and a file that is not there. -/
def repeated : Assoc Path (List String) := [
  (⟨.absolute, ["tree", "a", "A.java"]⟩, []),
  (⟨.absolute, ["tree", "b", "B.java"]⟩, ["a.A", "b.B", "a.A", "c.Gone"]),
  (⟨.absolute, ["tree", "C.java"]⟩, ["a..A", "b.B"])]

/-- The first file has the second one twice in its list and the third one behind it. -/
theorem ofImports_entries_repeated :
    let root : Path := ⟨.absolute, ["tree"]⟩
    let a : Path := ⟨.absolute, ["tree", "a", "A.java"]⟩
    let b : Path := ⟨.absolute, ["tree", "b", "B.java"]⟩
    let c : Path := ⟨.absolute, ["tree", "C.java"]⟩
    let graph := ofImports repeated root ["a", "b"] ".java"
    repeated.keys.Nodup ∧ a ∈ repeated.keys ∧ Assoc.get? a graph.dependents = some [b, b, c] ∧
      graph.edgeCount = (graph.dependents.map fun entry => entry.2.length).sum ∧ graph.edgeCount = 4 := by
  intro root a b c graph
  have hkeys : repeated.keys.Nodup := by decide
  have ha : a ∈ repeated.keys := by decide
  obtain ⟨-, -, hlists, hcount, -⟩ := @ofImports_entries repeated root ["a", "b"] ".java" hkeys
  refine ⟨hkeys, ha, ?_, hcount, by decide +kernel⟩
  rw [hlists a ha]
  decide +kernel

end SourceCensus.DependencyGraph
