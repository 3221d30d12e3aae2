import SourceCensus.Json.Printer
import SourceCensus.Output.Console
import SourceCensus.Output.Csv
import SourceCensus.Report

/-!
# Output formats

A census is written in one of three formats, always sorted by file name and then by path.

* JSON holds all of it; a missing count is its sentinel with the reason beside it.
* CSV holds one row for each file; a missing count is its sentinel.
* The table is for reading; it shows paths only when file names are shared.  A console draws it.

Paths are shown as seen from the root.  A path that does not lie under the root is a defect in CSV and
among shared names, while the files of the JSON form keep it as it is.

* `OutputFormat.ofName`: the format of a name;
* `Census.toTable`: the table that a console is given to draw;
* `Census.format`: the written form.
-/

set_option autoImplicit false

namespace SourceCensus

/-- How a census is written. -/
inductive OutputFormat where
  | csv
  | json
  | table (console : Console)

namespace OutputFormat

/-- The name of a format. -/
def name : OutputFormat → String
  | csv => "csv"
  | json => "json"
  | table _ => "table"

/-- All formats, by name. -/
def all (console : Console) : List OutputFormat := [csv, json, table console]

/-- The format of that name, with a console for tables. -/
def ofName (console : Console) (s : String) : Except Defect OutputFormat :=
  match (all console).find? (·.name = s) with
  | some f => .ok f
  | none => .error (.unknownFormat s ((all console).map name))

end OutputFormat

/-- The path as seen from the root. -/
def Path.relativeTo (p root : Path) : Except Defect Path :=
  match p.below? root with
  | some q => .ok q
  | none => .error (.notBelow p.render root.renderBare)

/-! ## JSON -/

/-- Texts as a JSON array. -/
def Json.ofStrings (l : List String) : Json := .array (l.map .string)

/-- A text that may be absent. -/
def Json.ofString? : Option String → Json
  | some s => .string s
  | none => .null

namespace FileReport

/-- The fields of a report, its path as seen from `root` if it lies under it. -/
def toJson (root : Option Path) (r : FileReport) : Json :=
  let path := match root with
    | some root => r.path.belowOrSelf root
    | none => r.path
  let reason (c : LineCount) := c.failure?.map FailureKind.label
  .object [
    ("file", .string r.name),
    ("path", .string path.render),
    ("root_namespace", Json.ofString? r.rootNamespace),
    ("source_lines", .int r.sourceLines.toInt),
    ("source_lines_error", Json.ofString? (reason r.sourceLines)),
    ("enhanced_lines", (r.enhancedLines.map fun c => Json.int c.toInt).getD .null),
    ("enhanced_lines_error", Json.ofString? (r.enhancedLines.bind reason)),
    ("dependencies", Json.ofStrings r.dependencies),
    ("direct_dependencies", Json.ofStrings r.direct)]

end FileReport

namespace Census

/-- The shared names in order, each with its paths as seen from the root. -/
def collisionMembers (c : Census) : Except Defect (List (String × Json)) :=
  (c.collisions.mergeSort fun a b => a.1 ≤ b.1).mapM fun (name, paths) => do
    let relative ← paths.mapM fun p => p.relativeTo c.root
    return (name, Json.ofStrings (relative.map Path.render))

/-- The census as a JSON value. -/
def toJson (c : Census) : Except Defect Json := do
  let collisions ← c.collisionMembers
  return .object [
    ("root", .string c.root.render),
    ("root_namespaces", Json.ofStrings c.namespaces),
    ("files", .array (c.sorted.map (FileReport.toJson (some c.root)))),
    ("name_collisions", .object collisions)]

/-! ## CSV -/

/-- The first row of the CSV form. -/
def csvHeader : List String := ["file", "path", "source_lines", "enhanced_lines", "dependencies"]

/-- The row of a report. -/
def csvRow (root : Path) (r : FileReport) : Except Defect (List String) := do
  let path ← r.path.relativeTo root
  return [r.name, path.render, r.sourceLines.render,
    (r.enhancedLines.map LineCount.render).getD "", ";".intercalate r.dependencies]

/-- The rows of the CSV form. -/
def csvRows (c : Census) : Except Defect (List (List String)) := do
  let rows ← c.sorted.mapM (csvRow c.root)
  return csvHeader :: rows

/-! ## Table -/

/-- Whether the table shows paths. -/
def showsPaths (c : Census) : Bool := !c.collisions.isEmpty

/-- The columns of the table. -/
def tableColumns (c : Census) : List TableColumn :=
  [{ header := "File", style := some "cyan", noWrap := true }] ++
    (if c.showsPaths then [{ header := "Path", style := some "dim" }] else []) ++
    [{ header := "Source Lines", alignRight := true },
      { header := "Source Lines without Getters and Block Comments", alignRight := true },
      { header := "Dependencies" }]

/-- A count in the table; a missing one stands out. -/
def countCell (n : LineCount) : String :=
  if n.toInt < 0 then "[red]" ++ n.render ++ "[/red]" else n.render

/-- The row of a report. -/
def tableRow (c : Census) (r : FileReport) : Except Defect (List String) := do
  let path ←
    if c.showsPaths then
      match r.path.relativeTo c.root with
      | .ok p => .ok [p.render]
      | .error d => .error d
    else .ok []
  return [r.name] ++ path ++
    [countCell r.sourceLines, (r.enhancedLines.map countCell).getD "-",
      ", ".intercalate r.dependencies]

/-- The census as a table. -/
def toTable (c : Census) : Except Defect Table := do
  let rows ← c.sorted.mapM c.tableRow
  return { title := "Result", columns := c.tableColumns, rows := rows }

/-- The width of the console that a table is recorded on. -/
def recordWidth (console : Console) : Nat := max console.width 200

/-! ## All formats -/

/-- The written form of a census. -/
def format (c : Census) : OutputFormat → Except Defect String
  | .csv => c.csvRows.map Csv.render
  | .json => c.toJson.map Json.render
  | .table console => c.toTable.bind (console.record (recordWidth console))

end Census

end SourceCensus
