import SourceCensus.Json.Reader
import SourceCensus.Output.Format

/-!
# Records of written output

CSV and JSON are written for other programs.  What such a program takes from them is a record of each file:
five facts that both formats have, and four more that only JSON has.

* `FileRow`: the five facts; `FileRow.ofFields?` takes them from the fields of a CSV row and
  `FileRow.ofJson?` from an element of `files`;
* `FileEntry`: all nine; `FileEntry.ofJson?` takes them from an element of `files`;
* `Document`: all that a JSON text says; `Document.ofJson?` takes it from the value;
* `FileReport.row`, `FileReport.entry`: the facts themselves.
-/

set_option autoImplicit false

namespace SourceCensus

/-- What both CSV and JSON say about a file. -/
structure FileRow where
  file : String
  /-- The written form of the path as seen from the root. -/
  path : String
  /-- The count, or the sentinel of the reason why there is none. -/
  sourceLines : Int
  enhancedLines : Option Int
  dependencies : List String
  deriving Repr, DecidableEq

/-- What JSON says about a file. -/
structure FileEntry extends FileRow where
  rootNamespace : Option String
  sourceError : Option String
  enhancedError : Option String
  direct : List String
  deriving Repr, DecidableEq

/-- What JSON says about a census. -/
structure Document where
  root : String
  namespaces : List String
  files : List FileEntry
  collisions : Assoc String (List String)
  deriving Repr, DecidableEq

namespace FileReport

/-- What both CSV and JSON are to say about the file of a report. -/
def row (root : Path) (r : FileReport) : FileRow where
  file := r.name
  path := (r.path.belowOrSelf root).render
  sourceLines := r.sourceLines.toInt
  enhancedLines := r.enhancedLines.map LineCount.toInt
  dependencies := r.dependencies

/-- What JSON is to say about the file of a report. -/
def entry (root : Path) (r : FileReport) : FileEntry where
  toFileRow := r.row root
  rootNamespace := r.rootNamespace
  sourceError := r.sourceLines.failure?.map FailureKind.label
  enhancedError := (r.enhancedLines.bind LineCount.failure?).map FailureKind.label
  direct := r.direct

end FileReport

/-! ## From CSV -/

namespace FileRow

/-- The texts of a list with semicolons between them; an empty text is the empty list. -/
def readList (s : String) : List String :=
  if s.isEmpty then [] else (s.toList.splitOn ';').map String.ofList

/-- The whole number that a text writes. -/
def readInt? (s : String) : Option Int :=
  match Json.readNumber? s.toList with
  | some (.int n, []) => some n
  | _ => none

/-- A number that may be left out. -/
def readCount? (s : String) : Option (Option Int) :=
  if s.isEmpty then some none else (readInt? s).map some

/-- What the fields of a row say. -/
def ofFields? : List String → Option FileRow
  | [file, path, sourceLines, enhancedLines, dependencies] => do
    let sourceLines ← readInt? sourceLines
    let enhancedLines ← readCount? enhancedLines
    return { file, path, sourceLines, enhancedLines, dependencies := readList dependencies }
  | _ => none

end FileRow

/-! ## From JSON -/

namespace Json

def string? : Json → Option String
  | .string s => some s
  | _ => none

def int? : Json → Option Int
  | .int n => some n
  | _ => none

/-- The elements of an array, each read by `read`. -/
def list? {α : Type} (read : Json → Option α) : Json → Option (List α)
  | .array items => items.mapM read
  | _ => none

/-- The members of an object in order, the value of each read by `read`. -/
def members? {α : Type} (read : Json → Option α) : Json → Option (Assoc String α)
  | .object members => members.mapM fun m => (read m.2).map (m.1, ·)
  | _ => none

/-- `null`, or what `read` reads. -/
def nullable? {α : Type} (read : Json → Option α) : Json → Option (Option α)
  | .null => some none
  | v => (read v).map some

/-- The member of that name, read by `read`. -/
def member? {α : Type} (read : Json → Option α) (name : String) : Json → Option α
  | .object members => (Assoc.get? name members).bind read
  | _ => none

end Json

/-- What an element of `files` says of what CSV says too. -/
def FileRow.ofJson? (v : Json) : Option FileRow := do
  let file ← v.member? Json.string? "file"
  let path ← v.member? Json.string? "path"
  let sourceLines ← v.member? Json.int? "source_lines"
  let enhancedLines ← v.member? (Json.nullable? Json.int?) "enhanced_lines"
  let dependencies ← v.member? (Json.list? Json.string?) "dependencies"
  return { file, path, sourceLines, enhancedLines, dependencies }

/-- What an element of `files` says. -/
def FileEntry.ofJson? (v : Json) : Option FileEntry := do
  let row ← FileRow.ofJson? v
  let rootNamespace ← v.member? (Json.nullable? Json.string?) "root_namespace"
  let sourceError ← v.member? (Json.nullable? Json.string?) "source_lines_error"
  let enhancedError ← v.member? (Json.nullable? Json.string?) "enhanced_lines_error"
  let direct ← v.member? (Json.list? Json.string?) "direct_dependencies"
  return { toFileRow := row, rootNamespace, sourceError, enhancedError, direct }

/-- What a JSON value says about a census. -/
def Document.ofJson? (v : Json) : Option Document := do
  let root ← v.member? Json.string? "root"
  let namespaces ← v.member? (Json.list? Json.string?) "root_namespaces"
  let files ← v.member? (Json.list? FileEntry.ofJson?) "files"
  let collisions ← v.member? (Json.members? (Json.list? Json.string?)) "name_collisions"
  return { root, namespaces, files, collisions }

end SourceCensus
