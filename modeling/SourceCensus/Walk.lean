import SourceCensus.FileSystem.Listing
import SourceCensus.Glob
import SourceCensus.Log
import SourceCensus.Root

/-!
# The walk

A walk goes through a tree depth first, the entries of each directory in the order of their names, and comes
upon files.  A directory is known by its location, and a second visit to it turns back at once; so links
that lead back do not make the walk endless.  A directory that cannot be reached or listed is passed
over.  An entry that cannot be resolved stops the walk where it is.

What happens is written down as a list of events, from which the files and the log records are read off.

A walk is never deeper than there are directories, because those it is in are all different.  That number
is the fuel.

* `Trail`, `Walk.visit`: the walk through one directory;
* `Walk.ofRoot`: the whole walk;
* `Trail.files`, `Trail.records`: what comes out of it.
-/

set_option autoImplicit false

namespace SourceCensus

/-- Something that happens on a walk. -/
inductive WalkEvent where
  /-- A file is found. -/
  | found (file : Path)
  /-- A file is left out by a glob. -/
  | excluded (file : Path)
  /-- A directory has been visited before. -/
  | revisited (directory : Path)
  /-- A directory cannot be reached. -/
  | unreached (directory : Path) (e : OsError)
  /-- A directory cannot be listed. -/
  | unlisted (directory : Path) (e : OsError)
  deriving Repr, DecidableEq

namespace WalkEvent

/-- The file that is found. -/
def file? : WalkEvent → Option Path
  | found file => some file
  | _ => none

/-- The part of the program that logs a walk. -/
def source : String := "codetally.file_ops"

/-- The record of an event. -/
def record? : WalkEvent → Option LogRecord
  | found _ => none
  | excluded file => some ⟨.debug, source, "Skipped (pattern): " ++ file.render⟩
  | revisited directory => some ⟨.debug, source, "Skipped (symlink loop): " ++ directory.render⟩
  | unreached directory e =>
    some ⟨.warning, source, s!"Cannot stat {directory.render}: {e.message}"⟩
  | unlisted directory e =>
    some ⟨.warning, source, s!"Cannot list {directory.render}: {e.message}"⟩

end WalkEvent

/-- How far a walk has come. -/
structure Trail where
  /-- The directories visited. -/
  visited : List Location := []
  /-- What has happened, in order. -/
  events : List WalkEvent := []
  /-- What stopped the walk. -/
  stopped : Option Defect := none
  deriving Repr, DecidableEq

namespace Trail

/-- The trail with one more event. -/
def note (t : Trail) (e : WalkEvent) : Trail := { t with events := t.events ++ [e] }

/-- The trail with one more directory visited. -/
def enter (t : Trail) (directory : Location) : Trail :=
  { t with visited := directory :: t.visited }

/-- The trail at its end. -/
def stop (t : Trail) (d : Defect) : Trail := { t with stopped := some d }

/-- The files found, in order. -/
def files (t : Trail) : List Path := t.events.filterMap WalkEvent.file?

/-- The records of what happened, in order. -/
def records (t : Trail) : List LogRecord := t.events.filterMap WalkEvent.record?

@[simp] theorem files_start : ({} : Trail).files = [] := rfl

@[simp] theorem files_note (t : Trail) (e : WalkEvent) :
    (t.note e).files = t.files ++ e.file?.toList := by
  unfold files note
  rw [List.filterMap_append]
  cases h : e.file? <;> simp [h]

@[simp] theorem files_enter (t : Trail) (directory : Location) :
    (t.enter directory).files = t.files := rfl

/-- The walk as a run that ends with the files found. -/
def toRun (t : Trail) : Run (List Path) where
  records := t.records
  outcome := match t.stopped with
    | some d => .error (.defect d)
    | none => .ok t.files

end Trail

/-- What a walk looks at. -/
structure WalkOptions where
  /-- Files that one of these matches are left out. -/
  globs : List (Except Defect Glob) := []
  /-- Whether links to directories are entered. -/
  followLinks : Bool := false
  /-- Whether names that start with a dot are looked at. -/
  allowHidden : Bool := true

namespace Walk

/-- What a walk makes of an entry that is no directory. -/
def passFile (fs : FileSystem) (options : WalkOptions) (t : Trail) (e : Listed) : Trail :=
  match fs.isFile e with
  | .error d => t.stop d
  | .ok false => t
  | .ok true =>
    match Glob.anyFits e.path options.globs with
    | .error d => t.stop d
    | .ok true => t.note (.excluded e.path)
    | .ok false => t.note (.found e.path)

/-- What a walk makes of one entry; directories are left to `enter`. -/
def pass (fs : FileSystem) (options : WalkOptions) (enter : Path → Trail → Trail) (t : Trail)
    (e : Listed) : Trail :=
  if t.stopped.isSome then t
  else if !options.allowHidden && isHidden e.name then t
  else
    match fs.isDirectory options.followLinks e with
    | .error d => t.stop d
    | .ok true => enter e.path t
    | .ok false => passFile fs options t e

/-- The walk through a directory, at most so deep. -/
def visit (fs : FileSystem) (options : WalkOptions) : Nat → Path → Trail → Trail
  | 0, _, t => t
  | depth + 1, directory, t =>
    match fs.stat directory with
    | .error e => t.note (.unreached directory e)
    | .ok (location, _) =>
      if location ∈ t.visited then t.note (.revisited directory)
      else
        match fs.list directory with
        | .error e => (t.enter location).note (.unlisted directory e)
        | .ok entries => entries.foldl (pass fs options (visit fs options depth)) (t.enter location)

/-- How deep a walk can be: through each entry and the top, and one look beyond. -/
def maxDepth (fs : FileSystem) : Nat := fs.entries.length + 2

/-- The walk through the tree at a root. -/
def ofRoot (fs : FileSystem) (options : WalkOptions) (root : Path) : Trail :=
  visit fs options (maxDepth fs) root {}

end Walk

end SourceCensus
