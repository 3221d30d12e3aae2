import Std.Time
import SourceCensus.Cli.Command
import SourceCensus.Program.Console
import SourceCensus.Program.Options

/-!
# The program

The program takes a picture of those parts of the file system that its arguments name, runs the command on
it, and writes back the files that the command has changed.  All decisions are the command's.

* `picture`: the entries that a path leads to, and below it if wanted;
* `main`: the program.
-/

set_option autoImplicit false

namespace SourceCensus.Program

/-- A location as the system spells it. -/
def spell (location : Location) : String := "/" ++ "/".intercalate location

/-- Where a path of the system leads, all links resolved. -/
def resolved? (location : Location) : IO (Option Location) := do
  try
    let real ← IO.FS.realPath (spell location)
    return some (Path.ofString (toString real)).parts
  catch _ => return none

/-- What stands at a location that is no link. -/
def entryAt (location : Location) : IO (Option Entry) := do
  try
    let real ← IO.FS.realPath (spell location)
    match (← real.metadata).type with
    | .dir => return some .directory
    | .file =>
      let bytes ← IO.FS.readBinFile real
      return some (.file { bytes := bytes.toList })
    | _ => return some .pipe
  catch _ => return some (.file { broken := some .denied })

/-- The names in a directory. -/
def namesAt (location : Location) : IO (List String) := do
  try
    let real ← IO.FS.realPath (spell location)
    return (← real.readDir).toList.map (·.fileName)
  catch _ => return []

/-- The picture with what stands at a location without links, and its directories. -/
def withEntry (fs : FileSystem) (location : Location) : IO FileSystem := do
  match ← entryAt location with
  | some entry => return fs.place [] location entry
  | none => return fs

mutual

/-- The picture with what the names lead to from `here`, and all below it if `deep`. -/
partial def picture (deep : Bool) (fs : FileSystem) (here : Location) :
    List String → IO FileSystem
  | [] => if deep then below fs here else return fs
  | ".." :: rest => picture deep fs here.dropLast rest
  | name :: rest => do
    let next := here ++ [name]
    match ← resolved? next with
    | none => return fs
    | some real =>
      let known := (fs.entryAt? real).isSome
      let fs ← if known then pure fs else withEntry fs real
      let fs := if real = next then fs else fs.put next (.link (spell real))
      if known && rest.isEmpty then return fs else picture deep fs real rest

/-- The picture with all that is below a directory. -/
partial def below (fs : FileSystem) (here : Location) : IO FileSystem := do
  if fs.isDirectoryAt here then
    (← namesAt here).foldlM (fun fs name => picture true fs here [name]) fs
  else return fs

end

/-- The picture with what a path leads to. -/
def withPath (deep : Bool) (fs : FileSystem) (p : Path) : IO FileSystem :=
  picture deep fs (fs.startOf p) p.parts

/-- The variables that give settings. -/
def environment : IO Environment := do
  let found ← Setting.all.mapM fun s => do
    let name := Environment.variableOf s
    return (← IO.getEnv name).map fun text => (name, text)
  return found.filterMap id

/-- The time as it stands in front of a log line. -/
def now : IO String := do
  return (← Std.Time.PlainDateTime.now).format "uuuu-MM-dd HH:mm:ss"

/-- The part of the world that the arguments are about. -/
def surroundings (args : List String) : IO Surroundings := do
  let here := Path.ofString (toString (← IO.currentDir))
  let home := Path.ofString ((← IO.getEnv "HOME").getD "/")
  let o := (Options.ofList? args).getD {}
  let paths := [here.child "codetally.toml", home.child ".codetally.toml"] ++
    (o.config.toList ++ o.output.toList ++ o.logFile.toList).map Path.ofString
  let fs : FileSystem := { workingDirectory := here.parts }
  let fs ← withPath false fs here
  let fs ← paths.foldlM (withPath false) fs
  let fs ← withPath true fs (Path.ofString o.inputText)
  return {
    files := fs
    home := home
    environment := ← environment
    time := ← now
    parse := parse fs
    console := console
    complaint := fun _ => "not a document of settings" }

/-- The files that differ from those before, written to the system. -/
def writeBack (before after : FileSystem) : IO Unit :=
  after.entries.forM fun (location, entry) => do
    match entry with
    | .file content =>
      if before.entryAt? location ≠ some entry then
        IO.FS.writeBinFile (spell location) (ByteArray.mk content.bytes.toArray)
    | _ => return ()

end SourceCensus.Program

open SourceCensus SourceCensus.Program

/-- Takes a census and prints it or writes it to a file. -/
def main (args : List String) : IO UInt32 := do
  let s ← surroundings args
  let outcome := Command.run s args
  writeBack s.files outcome.files
  IO.print outcome.stdout
  if outcome.status = 2 then IO.eprintln "Wrong usage of the command."
  return outcome.status.toUInt32
