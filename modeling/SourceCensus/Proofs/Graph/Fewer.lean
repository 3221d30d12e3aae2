import SourceCensus.Proofs.Graph.Construction
import SourceCensus.Proofs.Graph.Reachability

/-!
# The graph of fewer files

When files are left out of a tree, its dependency graph loses their nodes and every edge that begins or ends
at one of them.  An import of such a file stands for no known file any more.  So

> of fewer files none comes to depend on anything new (`closureOf_subset`),

whatever circles of imports ran through the files that are missing.  What a file depends on directly is read
off its own imports and stays as it was (`get?_direct_filter`).
-/

set_option autoImplicit false

namespace SourceCensus.DependencyGraph

variable {files fewer : Assoc Path (List String)} {root : Path} {namespaces : List String}
  {extension : String}

theorem dependentsOf_subset (h : fewer ⊆ files) (node : Path) :
    (ofImports fewer root namespaces extension).dependentsOf node ⊆
      (ofImports files root namespaces extension).dependentsOf node := by
  intro importer himporter
  obtain ⟨hkey, hne, names, hfile, himport⟩ := mem_dependentsOf_ofImports.mp himporter
  have hkeys : fewer.keys ⊆ files.keys := List.map_subset _ h
  exact mem_dependentsOf_ofImports.mpr ⟨hkeys hkey, hne, names, h hfile, himport⟩

theorem reaches_of_subset (h : fewer ⊆ files) {source node : Path}
    (hreach : (ofImports fewer root namespaces extension).Reaches source node) :
    (ofImports files root namespaces extension).Reaches source node :=
  Relation.ReflTransGen.mono (fun node _ hedge => dependentsOf_subset h node hedge) _ _ hreach

/-- With fewer files there are fewer dependencies. -/
theorem closureOf_subset (h : fewer ⊆ files) (node : Path) :
    (ofImports fewer root namespaces extension).closureOf node ⊆
      (ofImports files root namespaces extension).closureOf node := by
  intro ns hns
  obtain ⟨source, hsource, hreach, hdirect⟩ := (mem_closureOf_iff _).mp hns
  have hsources : (ofImports fewer root namespaces extension).direct ⊆
      (ofImports files root namespaces extension).direct := List.map_subset _ h
  exact (mem_closureOf_iff _).mpr ⟨source, hsources hsource, reaches_of_subset h hreach, hdirect⟩

/-- A file that is kept has the direct dependencies that it had. -/
theorem get?_direct_filter (keep : Path → Bool) {file : Path} (hkeep : keep file = true) :
    Assoc.get? file
        (ofImports (files.filter fun entry => keep entry.1) root namespaces extension).direct =
      Assoc.get? file (ofImports files root namespaces extension).direct := by
  rw [get?_direct, get?_direct, Assoc.get?_filter_key, if_pos hkeep]

end SourceCensus.DependencyGraph
