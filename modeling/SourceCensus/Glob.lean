import SourceCensus.Error
import SourceCensus.Glob.Wildcard
import SourceCensus.Path
import SourceCensus.Value

/-!
# Globs

A glob picks files to leave out.  It is read like a path, each component with wildcards, and compared with a
path component by component from the end; so a relative glob says what the end of a path looks like, and
an absolute one what the whole path does.  A root counts as a component of its path.  A glob without any
component is a defect.

* `Glob.ofString`: the glob that a text writes;
* `Glob.fits`: whether it matches a path;
* `Glob.anyFits`: whether one of several does.
-/

set_option autoImplicit false

namespace SourceCensus

/-- A path with wildcards. -/
structure Glob where
  root : PathRoot
  parts : List (List Wildcard)
  deriving Repr, DecidableEq

/-- The components of a path, its root included. -/
def Path.components (p : Path) : List String :=
  match p.root with
  | .relative => p.parts
  | root => root.render :: p.parts

namespace Glob

/-- The glob that a text writes. -/
def ofString (s : String) : Except Defect Glob :=
  let p := Path.ofString s
  if p.components.isEmpty then .error .emptyGlob
  else .ok ⟨p.root, p.parts.map fun part => Wildcard.ofChars part.toList⟩

/-- Whether the components match, each its counterpart. -/
def partsFit (patterns : List (List Wildcard)) (parts : List String) : Bool :=
  (patterns.zip parts).all fun (ws, part) => Wildcard.fits ws part.toList

/-- Whether the glob matches the path. -/
def fits (g : Glob) (p : Path) : Bool :=
  match g.root with
  | .relative =>
    g.parts.length ≤ p.components.length && partsFit g.parts.reverse p.components.reverse
  | root =>
    p.root == root && g.parts.length == p.parts.length &&
      partsFit g.parts.reverse p.parts.reverse

/-- The glob that a value writes.  A value that counts as a no writes nothing. -/
def ofValue : Value → Except Defect Glob
  | .string s => ofString s
  | v => if v.isTruthy then .error (.notText .pattern v.typeName) else .error .emptyGlob

/-- Whether one of several globs matches the path.  A glob that could not be read is a defect only when
none before it matches. -/
def anyFits (p : Path) : List (Except Defect Glob) → Except Defect Bool
  | [] => .ok false
  | .error d :: _ => .error d
  | .ok g :: rest => if g.fits p then .ok true else anyFits p rest

end Glob

end SourceCensus
