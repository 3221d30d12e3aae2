import SourceCensus.Proofs.Dotted.Files
import SourceCensus.Proofs.Graph.Construction

/-!
# The two readings of an import

An import is read twice.  As a name that stands for a file it makes an edge of the dependency graph; as a
name that lies under a namespace it makes a direct dependency.  One would like the second to follow from the
first:

> a file that imports a file of another namespace depends on that namespace directly.

The first reading drops the empty components of the name, and the second compares texts.  They agree as long
as the name does not begin with a dot (`mem_direct_of_dependent`); dots that are doubled or stand at the
end do no harm.  With a dot in front the edge is there and the dependency is not
(`leading_dot_dependent`).
-/

set_option autoImplicit false

namespace SourceCensus

variable {name extension : String} {root : Path}

/-- The directory below the root that the file of a name lies in is the first solid component. -/
theorem Dotted.head?_solidComponents_of_namespaceBelow? {file : Path} {ns : String}
    (hextension : '/' ∉ extension.toList) (hslash : '/' ∉ name.toList)
    (hfile : Dotted.path? name root extension = some file)
    (hns : file.namespaceBelow? root = some ns) :
    (Dotted.solidComponents name).head? = some ns := by
  obtain hnil | ⟨init, last, hparts⟩ := List.eq_nil_or_concat (Dotted.solidComponents name)
  · rw [Dotted.path?_eq_none_iff.mpr hnil] at hfile
    cases hfile
  · rw [List.concat_eq_append] at hparts
    rw [Dotted.path?_of_solidComponents hextension hslash hparts] at hfile
    cases hfile
    -- A single component lies in no directory below the root, because the extension opens none.
    rw [Path.namespaceBelow?_under_concat] at hns
    rw [hparts, List.head?_append, hns, Option.some_or]

namespace DependencyGraph

variable {files : Assoc Path (List String)} {namespaces : List String}

/-- A file with an import that stands for a file of another namespace depends on that namespace directly,
unless the import begins with a dot. -/
theorem mem_direct_of_dependent (h : files.keys.Nodup) (hextension : '/' ∉ extension.toList)
    (hnamespaces : ∀ g ∈ files.keys, ∀ ns, g.namespaceBelow? root = some ns → ns ∈ namespaces)
    {f g : Path} {names : List String} {ns : String} (hf : (f, names) ∈ files)
    (hname : name ∈ names) (hslash : '/' ∉ name.toList) (hdot : name.toList.head? ≠ some '.')
    (hg : g ∈ files.keys) (hpath : Dotted.path? name root extension = some g)
    (hns : g.namespaceBelow? root = some ns) (hother : f.namespaceBelow? root ≠ some ns) :
    let graph := ofImports files root namespaces extension
    f ∈ graph.dependentsOf g ∧ ∃ direct, Assoc.get? f graph.direct = some direct ∧ ns ∈ direct := by
  have hne : g ≠ f := by
    rintro rfl
    exact hother hns
  have hfirst : (Dotted.solidComponents name).head? = some ns :=
    Dotted.head?_solidComponents_of_namespaceBelow? hextension hslash hpath hns
  have hunder : Dotted.isUnder name ns = true :=
    (Dotted.isUnder_iff_of_solidComponents hfirst).mpr hdot
  refine ⟨mem_dependentsOf_ofImports.mpr ⟨hg, hne, names, hf, name, hname, hpath⟩, ?_⟩
  refine ⟨_, get?_direct_ofImports h hf, ?_⟩
  exact mem_directOf.mpr ⟨hnamespaces g hg ns hns, hother, name, hname, hunder⟩

/-- A tree of two files in two directories; the second one has these imports. -/
def neighbours (names : List String) : Assoc Path (List String) := [
  (⟨.absolute, ["tree", "a", "A.java"]⟩, []),
  (⟨.absolute, ["tree", "b", "B.java"]⟩, names)]

/-- The namespaces of these two files are among the two directories. -/
theorem namespaces_neighbours (names : List String) :
    ∀ g ∈ (neighbours names).keys, ∀ ns,
      g.namespaceBelow? ⟨.absolute, ["tree"]⟩ = some ns → ns ∈ ["a", "b"] := by
  intro g hg ns hns
  rcases List.mem_cons.mp hg with rfl | hg
  · obtain rfl : "a" = ns := Option.some.inj hns
    exact List.mem_cons_self
  · obtain rfl := List.mem_singleton.mp hg
    obtain rfl : "b" = ns := Option.some.inj hns
    exact List.mem_cons_of_mem _ List.mem_cons_self

theorem mem_direct_of_dependent_doubled_dot :
    let root : Path := ⟨.absolute, ["tree"]⟩
    let f : Path := ⟨.absolute, ["tree", "b", "B.java"]⟩
    let g : Path := ⟨.absolute, ["tree", "a", "A.java"]⟩
    let files := neighbours ["a..A."]
    let graph := ofImports files root ["a", "b"] ".java"
    Dotted.path? "a..A." root ".java" = some g ∧ f ∈ graph.dependentsOf g ∧
      ∃ direct, Assoc.get? f graph.direct = some direct ∧ "a" ∈ direct := by
  intro root f g files graph
  have hkeys : files.keys.Nodup := by decide
  have hf : (f, ["a..A."]) ∈ files := by decide
  have hpath : Dotted.path? "a..A." root ".java" = some g := by decide +kernel
  have hns : g.namespaceBelow? root = some "a" := by decide
  have hother : f.namespaceBelow? root ≠ some "a" := by decide
  exact ⟨hpath, mem_direct_of_dependent hkeys (by decide) (namespaces_neighbours _) hf
    List.mem_cons_self (by decide) (by decide) (by decide) hpath hns hother⟩

/-- An import that begins with a dot makes an edge between the namespaces and no direct dependency. -/
theorem leading_dot_dependent :
    let root : Path := ⟨.absolute, ["tree"]⟩
    let f : Path := ⟨.absolute, ["tree", "b", "B.java"]⟩
    let g : Path := ⟨.absolute, ["tree", "a", "A.java"]⟩
    let files := neighbours [".a.A"]
    let graph := ofImports files root ["a", "b"] ".java"
    (∀ g ∈ files.keys, ∀ ns, g.namespaceBelow? root = some ns → ns ∈ ["a", "b"]) ∧
      ".a.A".toList.all (fun c => c.isAlpha || c == '_' || c == '.') = true ∧
      (f, [".a.A"]) ∈ files ∧ Dotted.path? ".a.A" root ".java" = some g ∧
      f ∈ graph.dependentsOf g ∧
      g.namespaceBelow? root = some "a" ∧ f.namespaceBelow? root = some "b" ∧
      Assoc.get? f graph.direct = some [] := by
  intro root f g files graph
  have hf : (f, [".a.A"]) ∈ files := by decide
  have hpath : Dotted.path? ".a.A" root ".java" = some g := by decide +kernel
  have hedge : f ∈ graph.dependentsOf g :=
    mem_dependentsOf_ofImports.mpr
      ⟨by decide, by decide, [".a.A"], hf, ".a.A", List.mem_cons_self, hpath⟩
  refine ⟨namespaces_neighbours _, by decide, hf, hpath, hedge, by decide, by decide, ?_⟩
  rw [get?_direct_ofImports (by decide) hf]
  decide +kernel

end DependencyGraph

end SourceCensus
