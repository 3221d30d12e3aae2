import SourceCensus.Graph.Basic

/-!
# Closing dependencies

What a file depends on directly, the files that import it depend on too, and those that import these, and
so on.  Every file that has dependencies is a *source*; a search from it along the `dependents` edges
reaches the files that take its dependencies over.  Each search keeps a stack of files to visit and the
files visited, so that cycles end.

A search takes at most one step for each entry of the `dependents` lists, because a file's list is put
on the stack once, when the file is first visited.  That number is the fuel.

* `DependencyGraph.reached`: the files that a search visits, the source included;
* `DependencyGraph.closure`: the dependencies of each file, its own ones included.
-/

set_option autoImplicit false

namespace SourceCensus.DependencyGraph

variable {Node : Type} [DecidableEq Node]

def dependentsOf (g : DependencyGraph Node) (node : Node) : List Node :=
  (Assoc.get? node g.dependents).getD []

def entryCount (g : DependencyGraph Node) : Nat := (g.dependents.flatMap (·.2)).length

/-- The files visited when those on the stack have been visited too. -/
def search (g : DependencyGraph Node) : Nat → List Node → List Node → List Node
  | 0, _, visited => visited
  | _ + 1, [], visited => visited
  | n + 1, node :: stack, visited =>
    if node ∈ visited then search g n stack visited
    else
      let visited := node :: visited
      search g n ((g.dependentsOf node).filter (· ∉ visited) ++ stack) visited

/-- The files that take over what `source` depends on, `source` included. -/
def reached (g : DependencyGraph Node) (source : Node) : List Node :=
  g.search g.entryCount (g.dependentsOf source) [source]

/-- The dependencies with `more` among those of `node`. -/
def addTo (more : List String) (closure : Assoc Node (List String)) (node : Node) :
    Assoc Node (List String) :=
  let known := (Assoc.get? node closure).getD []
  Assoc.put node (known ++ more.filter (· ∉ known)) closure

/-- The dependencies of each file with those of one source handed on. -/
def spread (g : DependencyGraph Node) (closure : Assoc Node (List String))
    (source : Node × List String) : Assoc Node (List String) :=
  if source.2.isEmpty then closure
  else (g.reached source.1).foldl (addTo source.2) closure

def closure (g : DependencyGraph Node) : Assoc Node (List String) :=
  g.direct.foldl (spread g) g.direct

def closureOf (g : DependencyGraph Node) (node : Node) : List String :=
  (Assoc.get? node g.closure).getD []

end SourceCensus.DependencyGraph
