import SourceCensus.FileSystem.Listing
import SourceCensus.FileSystem.RealPath

/-!
# The root of a tree

A tree is analyzed from a directory.  The directories right in it, links to directories included, are the
namespaces of the tree.

* `Root.validate`: the real path of a root that can be analyzed;
* `Root.namespaces`: the names of its directories.
-/

set_option autoImplicit false

namespace SourceCensus

/-- Whether a name is that of a hidden entry. -/
def isHidden (name : String) : Bool := name.toList.head? = some '.'

namespace Root

/-- A refusal that nobody foresaw. -/
def orRefused {α : Type} : Except OsError α → Except Stop α
  | .ok a => .ok a
  | .error e => .error (.defect (.refused e))

/-- A root that cannot be analyzed. -/
def reject (p : Path) (reason : String) : Except Stop Path :=
  .error (.failure (.invalidPath p.render reason))

/-- The real path of the root. -/
def validate (fs : FileSystem) (p : Path) : Except Stop Path :=
  match fs.resolve p with
  | .error loop =>
    reject p ("Cannot resolve path: Symlink loop from " ++ Text.quote loop.render)
  | .ok root => do
    if !(← orRefused (fs.exists? root)) then reject root "Directory does not exist"
    else if !(← orRefused (fs.isDirectory? root)) then reject root "Path is not a directory"
    else if !fs.isReadable root then reject root "Directory is not readable"
    else return root

/-- The entries that are directories. -/
def directories (fs : FileSystem) : List Listed → Except Defect (List Listed)
  | [] => .ok []
  | e :: rest => do
    let is ← fs.isDirectory true e
    let others ← directories fs rest
    return if is then e :: others else others

/-- The names of the directories in the root, in order. -/
def namespaces (fs : FileSystem) (allowHidden : Bool) (root : Path) :
    Except Stop (List String) :=
  match fs.list root with
  | .error e =>
    .error (.failure (.ofFile .fileAccess root.render ("Directory listing failed: " ++ e.message)))
  | .ok entries =>
    match directories fs entries with
    | .error d => .error (.defect d)
    | .ok found => .ok ((found.map (·.name)).filter fun name => allowHidden || !isHidden name)

end Root

end SourceCensus
