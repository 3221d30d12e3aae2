import SourceCensus.FileSystem.Basic

/-!
# Real paths

The real path of a path has no link, no `.` and no `..` in it.  It is found lexically as far as possible,
so that what does not exist has a real path too: a missing component stays as it is, and `..` takes the
component before it away.  Links that lead back to themselves are left as they stand, and what follows them
is only tidied up.

* `RealPath.resolve`: the links of a path replaced by what they stand for;
* `FileSystem.realPath`: the absolute real path;
* `FileSystem.resolve`: the real path, or the loop that it runs into.
-/

set_option autoImplicit false

namespace SourceCensus

namespace RealPath

/-- The path one step up.  A relative path that has nothing left but steps up takes one more. -/
def up (p : Path) : Path :=
  match p.parts.getLast? with
  | none => if p.root = .relative then p.child ".." else p
  | some last => if last = ".." then p.child ".." else ⟨p.root, p.parts.dropLast⟩

/-- The target of the link at the path, if the path itself is a link. -/
def linkAt? (fs : FileSystem) (p : Path) : Option String :=
  match fs.lookUp false p with
  | .ok (_, .link target) => some target
  | _ => none

/-- The components of a text with the empty ones, as they matter in what is left unresolved. -/
def pieces (s : String) : List String := (s.toList.splitOn '/').map String.ofList

/-- Unresolved components behind a path; an empty one in front starts from the top. -/
def behind (p : Path) : List String → Path
  | "" :: next :: rest => ⟨.absolute, next :: rest⟩
  | rest => ⟨p.root, p.parts ++ rest⟩

/-- Links that were met: by their path, with what they stand for once that is known. -/
abbrev Seen := Assoc Path (Option Path)

/-- Where a resolution has arrived: at a path, or at a loop with the rest as it stands. -/
structure Arrival where
  path : Path
  complete : Bool
  seen : Seen

/-- The components behind `p`, with links resolved by `enter`, which is given the directory of the link and
its target. -/
def walk (fs : FileSystem) (enter : Path → String → Seen → Arrival) :
    List String → Path → Seen → Arrival
  | [], p, seen => ⟨p, true, seen⟩
  | name :: rest, p, seen =>
    if name = "" || name = "." then walk fs enter rest p seen
    else if name = ".." then walk fs enter rest (up p) seen
    else
      let next := p.child name
      match linkAt? fs next with
      | none => walk fs enter rest next seen
      | some target =>
        match Assoc.get? next seen with
        | some (some known) => walk fs enter rest known seen
        | some none => ⟨behind next rest, false, seen⟩
        | none =>
          let inner := enter p target (Assoc.put next none seen)
          if inner.complete then
            walk fs enter rest inner.path (Assoc.put next (some inner.path) inner.seen)
          else ⟨behind inner.path rest, false, inner.seen⟩

/-- What a link in the directory `p` stands for, with links in links up to a depth. -/
def enter (fs : FileSystem) : Nat → Path → String → Seen → Arrival
  | 0, p, target, seen => ⟨behind p (pieces target), false, seen⟩
  | depth + 1, p, target, seen =>
    let start : Path := if target.toList.head? = some '/' then ⟨.absolute, []⟩ else p
    walk fs (enter fs depth) (pieces target) start seen

/-- How deep links can stand in links: each is met under its absolute and its relative path at most. -/
def maxDepth (fs : FileSystem) : Nat := 2 * fs.entries.length + 1

/-- The path with its links resolved. -/
def resolve (fs : FileSystem) (p : Path) : Path :=
  let start : Path := match p.root with
    | .relative => ⟨.relative, []⟩
    | _ => ⟨.absolute, []⟩
  (walk fs (enter fs (maxDepth fs)) p.parts start []).path

/-- Components with `.` dropped and each `..` taken away with the component before it. -/
def tidy (parts : List String) : List String :=
  parts.foldl
    (fun done name =>
      if name = "" || name = "." then done
      else if name = ".." then done.dropLast
      else done ++ [name]) []

end RealPath

namespace FileSystem

/-- The absolute real path. -/
def realPath (fs : FileSystem) (p : Path) : Path :=
  let q := RealPath.resolve fs p
  let parts := match q.root with
    | .relative => fs.workingDirectory ++ q.parts
    | _ => q.parts
  ⟨.absolute, RealPath.tidy parts⟩

/-- The real path, or the path of a loop of links. -/
def resolve (fs : FileSystem) (p : Path) : Except Path Path :=
  let q := fs.realPath p
  match fs.stat q with
  | .error ⟨.linkLoop, _⟩ => .error q
  | _ => .ok q

end FileSystem

end SourceCensus
