import SourceCensus.FileSystem.Basic

/-!
# Directories and their entries

A listing gives the entries of a directory in the order of their names.  What an entry is can be asked of
the listing itself; only for a link does the system have to look where it leads.  A link that leads
nowhere is neither a directory nor a file, but any other refusal on the way is a defect.

* `FileSystem.list`: the entries of a directory;
* `FileSystem.isDirectory`, `FileSystem.isFile`: what an entry is.
-/

set_option autoImplicit false

namespace SourceCensus

/-- An entry of a directory as it is listed. -/
structure Listed where
  name : String
  /-- The path of the directory with the name behind it. -/
  path : Path
  entry : Entry
  deriving Repr, DecidableEq

namespace FileSystem

/-- The entries of the directory `p`, which is at a location. -/
def listAt (fs : FileSystem) (p : Path) (directory : Location) : List Listed :=
  (fs.namesAt directory).filterMap fun name =>
    (fs.entryAt? (directory ++ [name])).map fun entry => ⟨name, p.child name, entry⟩

/-- The entries of the directory at the path. -/
def list (fs : FileSystem) (p : Path) : Except OsError (List Listed) :=
  fs.ask .list p <|
    match fs.lookUp true p with
    | .ok (location, .directory) => .ok (fs.listAt p location)
    | .ok _ => .error .notDirectory
    | .error e => .error e

/-- Whether what the link leads to satisfies `test`; nothing at all does not. -/
def linkSatisfies (fs : FileSystem) (test : Entry → Bool) (p : Path) : Except Defect Bool :=
  match fs.lookUp true p with
  | .ok (_, entry) => .ok (test entry)
  | .error .notFound => .ok false
  | .error e => .error (.refused ⟨e, some p.render⟩)

/-- Whether the entry is a directory, or a link to one if links are followed. -/
def isDirectory (fs : FileSystem) (followLinks : Bool) (e : Listed) : Except Defect Bool :=
  match e.entry with
  | .directory => .ok true
  | .link _ => if followLinks then fs.linkSatisfies (· == .directory) e.path else .ok false
  | _ => .ok false

/-- Whether there are bytes to be read at the entry. -/
def isFileEntry : Entry → Bool
  | .file _ => true
  | _ => false

/-- Whether the entry is a file or a link to one. -/
def isFile (fs : FileSystem) (e : Listed) : Except Defect Bool :=
  match e.entry with
  | .link _ => fs.linkSatisfies isFileEntry e.path
  | entry => .ok (isFileEntry entry)

end FileSystem

end SourceCensus
