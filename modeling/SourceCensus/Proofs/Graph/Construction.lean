import Mathlib.Data.List.Perm.Subperm
import SourceCensus.Graph.Closure
import SourceCensus.Proofs.Dotted.Components

/-!
# What a dependency graph is built of

`DependencyGraph.ofImports` reads each import twice: as a name that may lie under a namespace, and as a
name that may stand for a file.  This file says what either reading puts into the graph, as a statement
about membership, so that later proofs see neither the loop over the namespaces nor the list of edges.

The loop stops early, when as many namespaces have been found as there are.  That loses nothing, because
what was found has no repetitions and lies among the namespaces: a list of such names that is as long as
the whole holds all of it (`mem_ofImportsFrom`).  If the namespaces themselves have repetitions the two
lengths never agree, and the loop just runs to its end.

* `Resolution.mem_ofImports`, `Resolution.nodup_ofImports`: the namespaces that imports lie under;
* `DependencyGraph.mem_directOf`: the same without the namespace of the file;
* `DependencyGraph.mem_dependentsOf_ofImports`: the importers of a file.
-/

set_option autoImplicit false

namespace SourceCensus

namespace Resolution

variable {namespaces found : List String} {name ns : String}

/-! ## One import -/

theorem mem_note :
    ns ∈ note namespaces name found ↔
      ns ∈ found ∨ ns ∈ namespaces ∧ Dotted.isUnder name ns = true := by
  unfold note
  induction namespaces generalizing found with
  | nil => simp
  | cons first namespaces ih =>
    -- A namespace that is there already is not added again, which membership does not see.
    have hstep : ns ∈ (if !found.contains first && Dotted.isUnder name first then found ++ [first]
        else found) ↔ ns ∈ found ∨ ns = first ∧ Dotted.isUnder name ns = true := by
      split <;> grind
    rw [List.foldl_cons, ih, hstep, List.mem_cons, or_and_right, or_assoc]

theorem nodup_note (h : found.Nodup) : (note namespaces name found).Nodup := by
  unfold note
  induction namespaces generalizing found with
  | nil => exact h
  | cons first namespaces ih =>
    rw [List.foldl_cons]
    refine ih ?_
    split
    · next hnew =>
      simp only [List.contains_eq_mem, Bool.and_eq_true, Bool.not_eq_eq_eq_not, Bool.not_true,
        decide_eq_false_iff_not] at hnew
      rw [List.nodup_append]
      refine ⟨h, by simp, ?_⟩
      rintro a ha b hb rfl
      exact hnew.1 (List.mem_singleton.mp hb ▸ ha)
    · exact h

/-! ## All imports -/

/-- What can be found so far: some of the namespaces, each once. -/
structure Partial (namespaces found : List String) : Prop where
  subset : found ⊆ namespaces
  nodup : found.Nodup

theorem Partial.note (h : Partial namespaces found) (name : String) :
    Partial namespaces (note namespaces name found) where
  subset _ hns := (mem_note.mp hns).elim (fun hfound => h.subset hfound) And.left
  nodup := nodup_note h.nodup

/-- Where nothing is missing in number, nothing is missing. -/
theorem Partial.mem_of_length_eq (h : Partial namespaces found)
    (hlength : found.length = namespaces.length) (hns : ns ∈ namespaces) : ns ∈ found := by
  have hsub : found.Subperm namespaces := List.subperm_of_subset h.nodup h.subset
  exact (hsub.perm_of_length_le (Nat.le_of_eq hlength.symm)).mem_iff.mpr hns

theorem mem_ofImportsFrom {names : List String} (h : Partial namespaces found) :
    ns ∈ (ofImportsFrom namespaces found names).found ↔
      ns ∈ found ∨ ns ∈ namespaces ∧ ∃ name ∈ names, Dotted.isUnder name ns = true := by
  induction names generalizing found with
  | nil => simp [ofImportsFrom]
  | cons name names ih =>
    have hnote : Partial namespaces (Resolution.note namespaces name found) := h.note name
    rw [ofImportsFrom]
    split
    · next hlength =>
      constructor
      · intro hns
        rcases mem_note.mp hns with hfound | ⟨hmem, hunder⟩
        · exact Or.inl hfound
        · exact Or.inr ⟨hmem, name, List.mem_cons_self, hunder⟩
      · rintro (hfound | ⟨hmem, -⟩)
        · exact mem_note.mpr (Or.inl hfound)
        · exact hnote.mem_of_length_eq hlength hmem
    · rw [ih hnote, mem_note, or_assoc, ← and_or_left]
      simp only [List.mem_cons, exists_eq_or_imp]

theorem nodup_ofImportsFrom {names : List String} (h : Partial namespaces found) :
    (ofImportsFrom namespaces found names).found.Nodup := by
  induction names generalizing found with
  | nil => exact h.nodup
  | cons name names ih =>
    rw [ofImportsFrom]
    split
    · exact (h.note name).nodup
    · exact ih (h.note name)

theorem Partial.empty : Partial namespaces [] := ⟨List.nil_subset _, List.nodup_nil⟩

theorem mem_ofImports {names : List String} :
    ns ∈ (ofImports namespaces names).found ↔
      ns ∈ namespaces ∧ ∃ name ∈ names, Dotted.isUnder name ns = true := by
  unfold ofImports
  split
  · next h => simp [List.isEmpty_iff.mp h]
  · simp [mem_ofImportsFrom Partial.empty]

theorem nodup_ofImports {names : List String} : (ofImports namespaces names).found.Nodup := by
  unfold ofImports
  split
  · exact List.nodup_nil
  · exact nodup_ofImportsFrom Partial.empty

end Resolution

namespace DependencyGraph

variable {files : Assoc Path (List String)} {root : Path} {namespaces : List String}
  {extension : String}

/-! ## Direct dependencies -/

theorem mem_directOf {file : Path × List String} {ns : String} :
    ns ∈ directOf root namespaces file ↔
      ns ∈ namespaces ∧ file.1.namespaceBelow? root ≠ some ns ∧
        ∃ name ∈ file.2, Dotted.isUnder name ns = true := by
  rw [directOf, Resolution.mem_ofImports, List.mem_filter, and_assoc, bne_iff_ne]
  exact and_congr_right fun _ => and_congr_left fun _ => ne_comm

theorem mem_direct_ofImports {file : Path} {names : List String} (h : (file, names) ∈ files) :
    (file, directOf root namespaces (file, names)) ∈
      (ofImports files root namespaces extension).direct :=
  List.mem_map_of_mem (f := fun file => (file.1, directOf root namespaces file)) h

theorem get?_direct (file : Path) :
    Assoc.get? file (ofImports files root namespaces extension).direct =
      (Assoc.get? file files).map fun names => directOf root namespaces (file, names) :=
  Assoc.get?_map (directOf root namespaces) file files

theorem get?_direct_ofImports {file : Path} {names : List String} (h : files.keys.Nodup)
    (hfile : (file, names) ∈ files) :
    Assoc.get? file (ofImports files root namespaces extension).direct =
      some (directOf root namespaces (file, names)) := by
  rw [get?_direct, (Assoc.get?_eq_some_iff h).mpr hfile, Option.map_some]

/-! ## Edges -/

/-- An edge leads from a known file to another file, one of whose imports stands for it. -/
theorem mem_edges {imported importer : Path} :
    Edge.mk imported importer ∈ edges files root extension ↔
      imported ∈ files.keys ∧ imported ≠ importer ∧
        ∃ names, (importer, names) ∈ files ∧
          ∃ name ∈ names, Dotted.path? name root extension = some imported := by
  simp only [edges, List.mem_flatMap, edgesOf, List.mem_filterMap]
  constructor
  · rintro ⟨⟨file, names⟩, hfile, name, hname, hedge⟩
    cases hpath : Dotted.path? name root extension with
    | none => simp [hpath] at hedge
    | some target =>
      simp only [hpath, Bool.or_eq_true, decide_eq_true_eq, Bool.not_eq_eq_eq_not, Bool.not_true,
        List.contains_eq_mem, decide_eq_false_iff_not] at hedge
      split at hedge
      · cases hedge
      · next hne =>
        obtain ⟨rfl, rfl⟩ := Edge.mk.inj (Option.some.inj hedge)
        rw [not_or, not_not] at hne
        exact ⟨hne.2, hne.1, names, hfile, name, hname, hpath⟩
  · rintro ⟨hknown, hne, names, hfile, name, hname, hpath⟩
    refine ⟨(importer, names), hfile, name, hname, ?_⟩
    simp [hpath, hknown, hne]

theorem mem_importers {Node : Type} [DecidableEq Node] {edges : List (Edge Node)}
    {node importer : Node} :
    importer ∈ importers edges node ↔ Edge.mk node importer ∈ edges := by
  simp only [importers, List.mem_map, List.mem_filter, decide_eq_true_eq]
  constructor
  · rintro ⟨edge, ⟨hedge, rfl⟩, rfl⟩
    exact hedge
  · intro hedge
    exact ⟨_, ⟨hedge, rfl⟩, rfl⟩

/-- The dependents of a file are the other files with an import that stands for it. -/
theorem mem_dependentsOf_ofImports {imported importer : Path} :
    importer ∈ (ofImports files root namespaces extension).dependentsOf imported ↔
      imported ∈ files.keys ∧ imported ≠ importer ∧
        ∃ names, (importer, names) ∈ files ∧
          ∃ name ∈ names, Dotted.path? name root extension = some imported := by
  rw [← mem_edges]
  simp only [dependentsOf, ofImports, Assoc.get?_map_key]
  split
  · rw [Option.getD_some, mem_importers]
  · next hunknown =>
    rw [mem_edges]
    simp [hunknown]

end DependencyGraph

end SourceCensus
