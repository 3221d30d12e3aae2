import SourceCensus.Assoc
import SourceCensus.Dotted

/-!
# The dependency graph

The nodes are the files of a tree.  `direct` holds the namespaces that a file imports from, its own one left
out; `dependents` leads from a file to the files that import it, once for each import, in file order.
Dependencies travel along these edges from an imported file to its importers.

* `Path.namespaceBelow?`: the directory right below the root that a file lies in;
* `Resolution.ofImports`: the namespaces that imports fall under, and how many imports that took;
* `DependencyGraph.ofImports`: the graph of a tree.
-/

set_option autoImplicit false

namespace SourceCensus

/-- The import relations between the files of a tree. -/
structure DependencyGraph (Node : Type) where
  /-- The namespaces that each file imports from. -/
  direct : Assoc Node (List String)
  /-- The files that import each file. -/
  dependents : Assoc Node (List Node)
  /-- The names that each file imports. -/
  imports : Assoc Node (List String)
  edgeCount : Nat
  deriving Repr, DecidableEq

/-- The first directory below `root` that contains the path. -/
def Path.namespaceBelow? (p root : Path) : Option String :=
  match p.below? root with
  | some ⟨_, first :: _ :: _⟩ => some first
  | _ => none

/-! ## From imports to namespaces -/

/-- The namespaces found among imports, and the number of imports looked at. -/
structure Resolution where
  found : List String
  consumed : Nat
  deriving Repr, DecidableEq

namespace Resolution

/-- The found namespaces and those that `name` lies under. -/
def note (namespaces : List String) (name : String) (found : List String) : List String :=
  namespaces.foldl
    (fun found ns => if !found.contains ns && Dotted.isUnder name ns then found ++ [ns] else found)
    found

/-- The namespaces that the imports lie under, with `found` known already. -/
def ofImportsFrom (namespaces : List String) : List String → List String → Resolution
  | found, [] => ⟨found, 0⟩
  | found, name :: names =>
    let found := note namespaces name found
    if found.length = namespaces.length then ⟨found, 1⟩
    else
      let rest := ofImportsFrom namespaces found names
      ⟨rest.found, rest.consumed + 1⟩

/-- The namespaces that at least one import lies under.  Looking stops when all of them were found, and
does not start when there are none. -/
def ofImports (namespaces imports : List String) : Resolution :=
  if namespaces.isEmpty then ⟨[], 0⟩ else ofImportsFrom namespaces [] imports

end Resolution

/-! ## From imports to edges -/

namespace DependencyGraph

/-- An import of one file that names another: the imported file and its importer. -/
structure Edge (Node : Type) where
  imported : Node
  importer : Node
  deriving Repr, DecidableEq

/-- The edges that the imports of one file make.  An import of the file itself, or of a file that is not
among the known ones, makes none. -/
def edgesOf (known : List Path) (root : Path) (extension : String) (file : Path × List String) :
    List (Edge Path) :=
  file.2.filterMap fun name =>
    match Dotted.path? name root extension with
    | none => none
    | some target =>
      if target = file.1 || !known.contains target then none else some ⟨target, file.1⟩

/-- The edges of a tree, in file order. -/
def edges (files : Assoc Path (List String)) (root : Path) (extension : String) :
    List (Edge Path) :=
  files.flatMap (edgesOf files.keys root extension)

/-- The namespaces that a file imports from, the one it lies in left out. -/
def directOf (root : Path) (namespaces : List String) (file : Path × List String) :
    List String :=
  let own := file.1.namespaceBelow? root
  (Resolution.ofImports (namespaces.filter (some · != own)) file.2).found

def importers {Node : Type} [DecidableEq Node] (edges : List (Edge Node)) (node : Node) :
    List Node :=
  (edges.filter (·.imported = node)).map (·.importer)

/-- The graph of a tree whose files are mapped to their imports. -/
def ofImports (files : Assoc Path (List String)) (root : Path) (namespaces : List String)
    (extension : String) : DependencyGraph Path :=
  let edges := edges files root extension
  { direct := files.map fun file => (file.1, directOf root namespaces file)
    dependents := files.map fun file => (file.1, importers edges file.1)
    imports := files
    edgeCount := edges.length }

end DependencyGraph

end SourceCensus
