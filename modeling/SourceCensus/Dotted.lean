import SourceCensus.Path

/-!
# Dotted names

An imported name is a list of components with dots between them.  It is read in two ways: it lies under a
namespace whose components are the first of its own, and it names a file whose directories are its
components.

* `Dotted.components`: the components, empty ones included;
* `Dotted.isUnder`: whether a name is a namespace or lies below it;
* `Dotted.path?`: the file that a name stands for, from a root on.
-/

set_option autoImplicit false

namespace SourceCensus.Dotted

/-- The components of a name, empty ones included. -/
def components (name : String) : List String := (name.toList.splitOn '.').map String.ofList

/-- Whether the name is the namespace or goes on behind it with a dot. -/
def isUnder (name ns : String) : Bool :=
  name == ns || (ns.toList ++ ['.']).isPrefixOf name.toList

/-- The components of a name that are not empty. -/
def solidComponents (name : String) : List String := (components name).filter (· != "")

/-- The components one behind the other, the last one with the extension. -/
def joinParts (root : Path) (extension : String) : List String → Path
  | [] => root
  | [last] => root.join (last ++ extension)
  | part :: parts => joinParts (root.join part) extension parts

/-- The file that the name stands for: its components below the root, the last one with the extension. -/
def path? (name : String) (root : Path) (extension : String) : Option Path :=
  match solidComponents name with
  | [] => none
  | parts => some (joinParts root extension parts)

end SourceCensus.Dotted
