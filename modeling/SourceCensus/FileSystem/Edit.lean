import SourceCensus.FileSystem.Basic

/-!
# Changing the file system

Every change is a put or a removal at a location; where a path leads is decided first.

* `FileSystem.put`, `FileSystem.removeTree`: the changes at locations;
* `FileSystem.openFile`, `FileSystem.extend`: the two steps of a program that writes to a path, each of which
  can fail: links are followed, a missing file is made, its directory is not;
* `FileSystem.writeFile`: both steps for a file that is written anew;
* `FileSystem.place`, `FileSystem.removeAt`: how a tree is set up: missing directories are made.
-/

set_option autoImplicit false

namespace SourceCensus.FileSystem

/-- The file system with an entry at a location. -/
def put (fs : FileSystem) (location : Location) (entry : Entry) : FileSystem :=
  { fs with entries := Assoc.put location entry fs.entries }

/-- The top is a directory, whatever is put there. -/
theorem entryAt?_put (fs : FileSystem) {location : Location} (h : location ≠ []) (entry : Entry)
    (there : Location) :
    (fs.put location entry).entryAt? there =
      if there = location then some entry else fs.entryAt? there := by
  cases there with
  | nil => rw [if_neg (Ne.symm h), entryAt?, entryAt?]
  | cons name rest => exact Assoc.get?_put (name :: rest) location entry fs.entries

/-- The file system without the location and all below it. -/
def removeTree (fs : FileSystem) (location : Location) : FileSystem :=
  { fs with entries := fs.entries.filter fun e => !location.isPrefixOf e.1 }

/-! ## Writing to a path -/

/-- The file system with the file at the path opened for writing.  A missing file is made; what is in it stays
there if `keep`, and is dropped at once if not. -/
def openFile (fs : FileSystem) (keep : Bool) (p : Path) : Except OsError FileSystem :=
  fs.ask .write p <|
    match fs.find true p with
    | .ok (.absent location) => .ok (fs.put location (.file {}))
    | .ok (.present location (.file _)) => .ok (if keep then fs else fs.put location (.file {}))
    | .ok (.present _ .pipe) => .ok fs
    | .ok (.present _ _) => .error .isDirectory
    | .error e => .error e

/-- What the system takes of bytes that are written to the path. -/
def taken (fs : FileSystem) (p : Path) (bytes : List UInt8) : List UInt8 :=
  match Assoc.get? p fs.limits with
  | some limit => bytes.take limit.room
  | none => bytes

/-- Why the system does not take all of the bytes, if it does not. -/
def shortfall? (fs : FileSystem) (p : Path) (bytes : List UInt8) : Option OsError :=
  match Assoc.get? p fs.limits with
  | some limit => if limit.room < bytes.length then some ⟨limit.reason, none⟩ else none
  | none => none

/-- The file system with bytes at the end of the open file at the path, as many as the system takes. -/
def extend (fs : FileSystem) (p : Path) (bytes : List UInt8) : FileSystem :=
  match fs.find true p with
  | .ok (.present location (.file content)) =>
    fs.put location (.file { content with bytes := content.bytes ++ fs.taken p bytes })
  | _ => fs

/-- What becomes of the files when the one at the path is written anew, and what went wrong.  The file is opened
and emptied first, so that a write that stops short leaves the beginning of the bytes. -/
def writeFile (fs : FileSystem) (p : Path) (bytes : List UInt8) : FileSystem × Option OsError :=
  match fs.openFile false p with
  | .error e => (fs, some e)
  | .ok opened => (opened.extend p bytes, opened.shortfall? p bytes)

/-! ## Setting up a tree -/

/-- The file system in which the names lead from `here` to a directory, and where that is.  Names that are
missing are made; a name that leads to something else is left alone. -/
def makeDirectories (fs : FileSystem) (here : Location) : List String → FileSystem × Location
  | [] => (fs, here)
  | name :: rest =>
    match fs.descendWithin true maxLinks here [name] with
    | .ok (.present location _) => makeDirectories fs location rest
    | .ok (.absent location) => makeDirectories (fs.put location .directory) location rest
    | .error _ => makeDirectories fs (here ++ [name]) rest

/-- The file system with an entry at the names from `here`; the directories on the way are made. -/
def place (fs : FileSystem) (here : Location) (names : List String) (entry : Entry) : FileSystem :=
  match entry, names.getLast? with
  | .directory, _ => (fs.makeDirectories here names).1
  | _, none => fs
  | _, some name =>
    let (fs, parent) := fs.makeDirectories here names.dropLast
    fs.put (parent ++ [name]) entry

/-- The file system without what the names from `here` lead to; a link is removed itself. -/
def removeAt (fs : FileSystem) (here : Location) (names : List String) : FileSystem :=
  match fs.descendWithin false maxLinks here names with
  | .ok (.present location _) => fs.removeTree location
  | _ => fs

end SourceCensus.FileSystem
