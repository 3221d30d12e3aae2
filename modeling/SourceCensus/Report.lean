import SourceCensus.Assoc
import SourceCensus.Error
import SourceCensus.Path

/-!
# Reports

The census of a tree holds one report for each file: its counts, its imports, and the namespaces it depends
on.  A count that could not be taken is kept as the reason why; where a number is wanted, the reason stands
in as its negative sentinel.

* `LineCount`, `FileReport`, `Census`: the data;
* `Census.sorted`: the reports by file name, then by path;
* `Census.byName`: one report for each file name, the last one walked;
* `collisionsOf`: the file names that several paths share;
* `Census.failedFiles`: the files that could not be counted.
-/

set_option autoImplicit false

namespace SourceCensus

/-! ## Counts -/

/-- The count of a file, or why there is none. -/
inductive LineCount where
  | counted (n : Int)
  | failed (kind : FailureKind)
  deriving Repr, DecidableEq

namespace LineCount

def isOk : LineCount → Bool
  | counted _ => true
  | failed _ => false

/-- The count as a number, the sentinel of the reason if there is none. -/
def toInt : LineCount → Int
  | counted n => n
  | failed kind => kind.sentinel

def failure? : LineCount → Option FailureKind
  | counted _ => none
  | failed kind => some kind

def render (c : LineCount) : String := toString c.toInt

end LineCount

/-! ## Reports -/

/-- What the census says about one file. -/
structure FileReport where
  path : Path
  sourceLines : LineCount
  /-- The count without block comments and accessors, if it was asked for. -/
  enhancedLines : Option LineCount
  /-- The namespaces that the file depends on, directly or through other files. -/
  dependencies : List String
  /-- The namespaces that its imports lie under. -/
  direct : List String := []
  imports : List String := []
  /-- The directory right below the root that the file lies in. -/
  rootNamespace : Option String := none
  deriving Repr, DecidableEq

namespace FileReport

def name (r : FileReport) : String := r.path.name

/-- Whether `a` comes before `b` or in its place when sorted by name, then by path. -/
def atMost (a b : FileReport) : Bool :=
  if a.name = b.name then a.path.render ≤ b.path.render else a.name ≤ b.name

end FileReport

/-- The reports on all files of a tree. -/
structure Census where
  root : Path
  namespaces : List String
  /-- The reports in the order of the walk. -/
  reports : List FileReport
  /-- The file names that several paths share, with these paths in the order of the walk. -/
  collisions : Assoc String (List Path)
  deriving Repr, DecidableEq

namespace Census

def sorted (c : Census) : List FileReport := c.reports.mergeSort FileReport.atMost

/-- The reports by bare file name.  A name that several files share keeps the one walked last. -/
def byName (c : Census) : Assoc String FileReport :=
  Assoc.ofList (c.reports.map fun r => (r.name, r))

def failedFiles (c : Census) : List Path :=
  (c.reports.filter fun r => !r.sourceLines.isOk).map (·.path)

end Census

/-! ## Shared names -/

/-- The table with `p` behind the paths of the key. -/
def groupUnder (t : Assoc String (List Path)) (p : Path) : Assoc String (List Path) :=
  Assoc.put p.name ((Assoc.get? p.name t).getD [] ++ [p]) t

/-- The paths by file name, in order. -/
def groupByName (paths : List Path) : Assoc String (List Path) := paths.foldl groupUnder []

/-- The file names that several of the paths share. -/
def collisionsOf (paths : List Path) : Assoc String (List Path) :=
  (groupByName paths).filter fun group => 1 < group.2.length

end SourceCensus
