import SourceCensus.Assoc
import SourceCensus.Error
import SourceCensus.Path

/-!
# The file system

A file system is a table from locations to entries.  A *location* is the list of names from the top, with
no link in it, so that two locations are the same directory exactly when they are equal.  A *path* is what
a program holds; which location it leads to depends on the links on the way, and `FileSystem.find` decides
it as a system does: component by component, `..` goes up from where the links have led, and after forty
links the search is given up.

The system may refuse an operation at a path although the entry is there; `refusals` says which.  It may
also take only the first bytes of a write; `limits` says where.  Which encodings it can read besides those
of `Encoding` is its own affair, too.

* `Entry`, `FileSystem`: the data;
* `FileSystem.find`: where a path leads;
* `stat`, `readSource`, `isReadable`: what a program asks the system, each with its refusal.
-/

set_option autoImplicit false

namespace SourceCensus

/-! ## Entries -/

/-- The names from the top of the file system, none of them a link. -/
abbrev Location := List String

/-- What can be read from a file: bytes, and behind them the end or a refusal. -/
structure Content where
  bytes : List UInt8 := []
  /-- The refusal that reading meets behind the bytes. -/
  broken : Option Errno := none
  deriving Repr, DecidableEq

/-- What stands at a location. -/
inductive Entry where
  | file (content : Content)
  | directory
  /-- A link and the path that it stands for. -/
  | link (target : String)
  /-- A pipe that nobody writes to. -/
  | pipe
  deriving Repr, DecidableEq

/-- What a program asks the system to do at a path. -/
inductive Operation where
  /-- Open a source file. -/
  | read
  | list
  | stat
  /-- Tell whether reading is allowed. -/
  | access
  /-- Open a file to write to it. -/
  | write
  deriving Repr, DecidableEq

/-- How many bytes the system takes of a write, and why no more. -/
structure WriteLimit where
  room : Nat
  reason : Errno
  deriving Repr, DecidableEq

/-- How bytes are read as a text.  They are all of a file, or what was read of it before reading broke off. -/
abbrev Codec := List UInt8 → Bool → Except Defect (List Char)

/-- Entries by location, what the system refuses, and how it reads texts. -/
structure FileSystem where
  entries : Assoc Location Entry := []
  /-- The directory that relative paths start from. -/
  workingDirectory : Location := []
  /-- Operations that are refused at single paths, with the reason. -/
  refusals : Assoc (Operation × Path) Errno := []
  /-- The paths at which a write may stop short. -/
  limits : Assoc Path WriteLimit := []
  /-- The codecs by name that are installed besides those of `Encoding`. -/
  codec : String → Except Defect Codec := fun name => .error (.unknownEncoding name)

namespace FileSystem

/-- The entry at a location; the top is a directory. -/
def entryAt? (fs : FileSystem) : Location → Option Entry
  | [] => some .directory
  | at' => Assoc.get? at' fs.entries

/-- Whether a directory stands at the location. -/
def isDirectoryAt (fs : FileSystem) (here : Location) : Bool := fs.entryAt? here == some .directory

/-! ## Where a path leads -/

/-- Where a path leads: to an entry, or to a name that its directory does not have. -/
inductive Spot where
  | present (location : Location) (entry : Entry)
  | absent (location : Location)
  deriving Repr, DecidableEq

/-- The components of a link's target.  A slash at the end asks for a directory, as a last `.` does. -/
def targetParts (target : String) : List String :=
  let parts := (target.toList.splitOn '/').filter (!·.isEmpty)
  (parts.map String.ofList) ++ (if target.toList.getLast? = some '/' then ["."] else [])

/-- Where a target is looked up from. -/
def targetStart (here : Location) (target : String) : Location :=
  if target.toList.head? = some '/' then [] else here

/-- The search for the names from `here`; what a link stands for is looked up by `again`. -/
def descend (fs : FileSystem) (followLast : Bool)
    (again : Location → List String → Except Errno Spot) :
    Location → List String → Except Errno Spot
  | here, [] =>
    match fs.entryAt? here with
    | some e => .ok (.present here e)
    | none => .error .notFound
  | here, name :: rest =>
    match fs.entryAt? here with
    | none => .error .notFound
    | some .directory =>
      if name = "." then descend fs followLast again here rest
      else if name = ".." then descend fs followLast again here.dropLast rest
      else
        match fs.entryAt? (here ++ [name]) with
        | none => if rest.isEmpty then .ok (.absent (here ++ [name])) else .error .notFound
        | some (.link target) =>
          if rest.isEmpty && !followLast then .ok (.present (here ++ [name]) (.link target))
          else again (targetStart here target) (targetParts target ++ rest)
        | some _ => descend fs followLast again (here ++ [name]) rest
    | some _ => .error .notDirectory

/-- The search with at most so many links on the way. -/
def descendWithin (fs : FileSystem) (followLast : Bool) :
    Nat → Location → List String → Except Errno Spot
  | 0 => fs.descend followLast fun _ _ => .error .linkLoop
  | links + 1 => fs.descend followLast (descendWithin fs followLast links)

/-- The most links that a search follows. -/
def maxLinks : Nat := 40

/-- Where the search for a path starts. -/
def startOf (fs : FileSystem) (p : Path) : Location :=
  match p.root with
  | .relative => fs.workingDirectory
  | _ => []

/-- Where the path leads; a link as the last component is followed if `followLast`. -/
def find (fs : FileSystem) (followLast : Bool) (p : Path) : Except Errno Spot :=
  fs.descendWithin followLast maxLinks (fs.startOf p) p.parts

/-- The location and entry that the path leads to. -/
def lookUp (fs : FileSystem) (followLast : Bool) (p : Path) : Except Errno (Location × Entry) :=
  match fs.find followLast p with
  | .ok (.present location entry) => .ok (location, entry)
  | .ok (.absent _) => .error .notFound
  | .error e => .error e

/-! ## What a program asks -/

/-- The refusal of an operation at a path. -/
def refusal? (fs : FileSystem) (operation : Operation) (p : Path) : Option Errno :=
  Assoc.get? (operation, p) fs.refusals

/-- The answer of the system, with the path when it refuses; a refusal comes before any search. -/
def ask {α : Type} (fs : FileSystem) (operation : Operation) (p : Path)
    (answer : Except Errno α) : Except OsError α :=
  match fs.refusal? operation p with
  | some e => .error ⟨e, some p.render⟩
  | none =>
    match answer with
    | .ok a => .ok a
    | .error e => .error ⟨e, some p.render⟩

/-- What the path leads to. -/
def stat (fs : FileSystem) (p : Path) : Except OsError (Location × Entry) :=
  fs.ask .stat p (fs.lookUp true p)

/-- Whether the refusal says that nothing is there. -/
def isAbsence : Errno → Bool
  | .notFound | .notDirectory | .linkLoop => true
  | _ => false

/-- What the path leads to, if anything is there. -/
def stat? (fs : FileSystem) (p : Path) : Except OsError (Option Entry) :=
  match fs.stat p with
  | .ok (_, entry) => .ok (some entry)
  | .error e => if isAbsence e.errno then .ok none else .error e

/-- Whether anything is at the path. -/
def exists? (fs : FileSystem) (p : Path) : Except OsError Bool := (fs.stat? p).map (·.isSome)

/-- Whether the path leads to a directory. -/
def isDirectory? (fs : FileSystem) (p : Path) : Except OsError Bool :=
  (fs.stat? p).map (· == some .directory)

/-- Whether reading at the path is allowed. -/
def isReadable (fs : FileSystem) (p : Path) : Bool := (fs.refusal? .access p).isNone

/-- The name of an entry of a directory, if the location is one. -/
def nameIn? (directory location : Location) : Option String :=
  match location.getLast? with
  | some name => if location.dropLast = directory then some name else none
  | none => none

/-- The names in the directory at a location, in order. -/
def namesAt (fs : FileSystem) (directory : Location) : List String :=
  (fs.entries.keys.filterMap (nameIn? directory)).mergeSort

/-- What can be read at a location; nothing comes out of a pipe. -/
def contentOf : Entry → Except Errno Content
  | .file content => .ok content
  | .pipe => .ok {}
  | .directory => .error .isDirectory
  | .link _ => .error .linkLoop

/-- The content of the file at the path. -/
def content (fs : FileSystem) (p : Path) : Except Errno Content :=
  match fs.lookUp true p with
  | .ok (_, entry) => contentOf entry
  | .error e => .error e

/-- The content of the source file at the path. -/
def readSource (fs : FileSystem) (p : Path) : Except OsError Content :=
  fs.ask .read p (fs.content p)

end FileSystem

end SourceCensus
