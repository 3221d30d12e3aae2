import SourceCensus.Analysis
import SourceCensus.Cli.Arguments
import SourceCensus.FileSystem.Edit
import SourceCensus.FileSystem.RealPath
import SourceCensus.Output.Format

/-!
# The command

The command takes the census of a directory and prints it or writes it to a file.  What it does to the world
is a value: an exit status, a text on standard output, and the file system as it is left.  The output file
is opened last, when its text is known, so whatever fails before leaves it alone.

Status 1 says that the command failed.

* `Command.run`: the command with its arguments;
* `Command.perform`: what follows when the settings are known;
* `Command.deliver`: the end of it, where the census is printed or written.
-/

set_option autoImplicit false

namespace SourceCensus

/-- Where the command runs: a file system, and the libraries that it is handed. -/
structure Surroundings where
  files : FileSystem
  home : Path
  environment : Environment := []
  /-- The time as it stands in front of a log line. -/
  time : String
  /-- What the reader of command lines makes of one. -/
  parse : List String → Invocation
  console : Console
  /-- The words in which the reader of configuration files refuses bytes. -/
  complaint : List UInt8 → String

/-- What the command comes to. -/
structure Outcome where
  status : Nat
  stdout : String := ""
  files : FileSystem

namespace Command

/-- The version of the program. -/
def version : String := "0.1.0"

/-! ## Printing -/

/-- What is printed piece by piece, up to the first piece that cannot be, and why that one cannot. -/
def printed : List (Except Defect String) → String × Option Defect
  | [] => ("", none)
  | .error d :: _ => ("", some d)
  | .ok text :: rest =>
    let (texts, defect?) := printed rest
    (text ++ texts, defect?)

/-- The end of the command with a line behind what was printed.  If the line cannot be printed, the command
fails. -/
def say (console : Console) (files : FileSystem) (stdout : String) (status : Nat) (line : String) :
    Outcome :=
  match console.print line with
  | .ok text => { status := status, stdout := stdout ++ text, files := files }
  | .error _ => { status := 1, stdout := stdout, files := files }

/-- The line about a foreseen failure. -/
def errorLine (message : String) : String := "[red]Error:[/red] " ++ message

/-- The line about an unforeseen failure. -/
def unexpectedLine (message : String) : String := "[red]Unexpected error:[/red] " ++ message

/-- The line that says where a table was written. -/
def writtenLine (path : Path) : String := "[green]Result written to[/green] " ++ path.render

/-- The line about file names that are shared. -/
def sharedLine (shared : Nat) : String :=
  s!"[yellow]Warning:[/yellow] {shared} file name(s) are shared by several files; see the Path column"

/-- The line with the version. -/
def versionLine : String :=
  "[bold cyan]codetally[/bold cyan] version [green]" ++ version ++ "[/green]"

/-! ## The log file -/

/-- A log file and the least level that it holds. -/
structure LogFile where
  path : Path
  threshold : LogLevel

/-- Where a log file is: `..` takes the name before it away, even if that is a link. -/
def logPath (files : FileSystem) (p : Path) : Path :=
  let parts := match p.root with
    | .relative => files.workingDirectory ++ p.parts
    | _ => p.parts
  ⟨.absolute, RealPath.tidy parts⟩

/-- A record as a line of the log file. -/
def logLine (time : String) (r : LogRecord) : String :=
  time ++ " - " ++ r.source ++ " - " ++ r.level.name ++ " - " ++ r.text ++ "\n"

/-- The lines of the records that are let through. -/
def logText (time : String) (threshold : LogLevel) (records : List LogRecord) : String :=
  String.join ((records.filter (LogRecord.passes threshold)).map (logLine time))

/-- The files with records added to the log file, if there is one.  What it cannot take is lost. -/
def writeLog (time : String) (log : Option LogFile) (records : List LogRecord)
    (files : FileSystem) : FileSystem :=
  match log with
  | none => files
  | some log => files.extend log.path (Utf8.encode (logText time log.threshold records).toList)

/-- The files with the log file made ready.  When it cannot be opened, that is why. -/
def openLog (log : Option LogFile) (files : FileSystem) : Except OsError FileSystem :=
  match log with
  | none => .ok files
  | some log => files.openFile true log.path

/-! ## The end -/

/-- What is printed of a census that is not written to a file. -/
def display (census : Census) : OutputFormat → List (Except Defect String)
  | .csv => [census.format .csv]
  | .json => [(census.format .json).map (· ++ "\n")]
  | .table console =>
    census.toTable.bind console.printTable ::
      if census.collisions.isEmpty then []
      else [console.print (sharedLine census.collisions.length)]

/-- What the last step of the command comes to, and the defect that it ends in. -/
structure Delivery where
  files : FileSystem
  stdout : String := ""
  defect? : Option Defect := none

/-- The census written to a file.  For a table the command says so. -/
def deliverTo (console : Console) (format : OutputFormat) (census : Census) (path : Path)
    (files : FileSystem) : Delivery :=
  match census.format format with
  | .error d => { files := files, defect? := some d }
  | .ok text =>
    match files.writeFile path (Utf8.encode text.toList) with
    | (files, some e) => { files := files, defect? := some (.refused e) }
    | (files, none) =>
      match format with
      | .table _ =>
        let (line, defect?) := printed [console.print (writtenLine path)]
        { files := files, stdout := line, defect? := defect? }
      | _ => { files := files }

/-- The census written to a file if one is given, and else printed. -/
def deliver (console : Console) (format : OutputFormat) (census : Census) (output : Option Path)
    (files : FileSystem) : Delivery :=
  match output with
  | some path => deliverTo console format census path files
  | none =>
    let (text, defect?) := printed (display census format)
    { files := files, stdout := text, defect? := defect? }

/-! ## The command -/

/-- What the command was asked to do, as far as it is checked before the settings are known. -/
structure Request where
  root : Path
  output : Option Path
  format : OutputFormat
  log : Option LogFile

/-- The part of the program that the command logs as. -/
def source : String := LogRecord.family

/-- What the command comes to when something has failed behind what was printed. -/
def failed (s : Surroundings) (log : Option LogFile) (files : FileSystem) (stdout : String) :
    Stop → Outcome
  | .failure f =>
    let record : LogRecord := ⟨.error, source, f.family.label ++ ": " ++ f.message⟩
    say s.console (writeLog s.time log [record] files) stdout 1 (errorLine f.message)
  | .defect d =>
    let record : LogRecord := ⟨.error, source, "Unexpected error during analysis"⟩
    say s.console (writeLog s.time log [record] files) stdout 1 (unexpectedLine d.message)

/-- What the command comes to with its last step. -/
def conclude (s : Surroundings) (log : Option LogFile) (delivery : Delivery) : Outcome :=
  match delivery.defect? with
  | some d => failed s log delivery.files delivery.stdout (.defect d)
  | none => { status := 0, stdout := delivery.stdout, files := delivery.files }

/-- The command from the settings on.  The log file is opened first and is there during the census. -/
def perform (s : Surroundings) (settings : Settings) (request : Request) : Outcome :=
  match openLog request.log s.files with
  | .error _ => { status := 1, files := s.files }
  | .ok files =>
    let loaded : LogRecord := ⟨.debug, source, "Loaded settings: " ++ settings.render⟩
    let files := writeLog s.time request.log [loaded] files
    let run := Census.take files settings request.root
    let files := writeLog s.time request.log run.records files
    match run.outcome with
    | .error stop => failed s request.log files "" stop
    | .ok census =>
      conclude s request.log (deliver s.console request.format census request.output files)

/-- The settings that the arguments give. -/
def overridesOf (a : Arguments) : Assoc String Value :=
  [("verbose", .bool a.verbose), ("quiet", .bool a.quiet)] ++
    (if a.noEnhanced then [(Setting.enhanced.key, .bool false)] else []) ++
    (if a.keepAccessors then [(Setting.excludeAccessors.key, .bool false)] else []) ++
    (if a.exclude.isEmpty then []
    else [(Setting.excludePatterns.key, .list (a.exclude.map .string))])

/-- What the settings of a run are gathered from. -/
def settingsSource (s : Surroundings) (a : Arguments) : SettingsSource where
  files := s.files
  home := s.home
  environment := s.environment
  configFile := a.config
  overrides := overridesOf a
  complaint := s.complaint

/-- The request that the arguments make. -/
def requestOf (files : FileSystem) (a : Arguments) (format : OutputFormat) (settings : Settings) :
    Request where
  root := a.inputDirectory
  output := a.output
  format := format
  log := a.logFile.map fun p => ⟨logPath files p, settings.verbosity.threshold⟩

/-- The command when it is called. -/
def call (s : Surroundings) (a : Arguments) : Outcome :=
  if a.version then say s.console s.files "" 0 versionLine
  else if a.verbose && a.quiet then
    say s.console s.files "" 1 (errorLine "--verbose and --quiet are mutually exclusive")
  else
    match OutputFormat.ofName s.console a.format with
    | .error d => say s.console s.files "" 1 (errorLine d.message)
    | .ok format =>
      match Settings.load (settingsSource s a) with
      | .error (.failure f) => say s.console s.files "" 1 (errorLine f.message)
      | .error (.defect _) => { status := 1, files := s.files }
      | .ok settings => perform s settings (requestOf s.files a format settings)

/-- The command, by its command line. -/
def run (s : Surroundings) (args : List String) : Outcome :=
  match s.parse args with
  | .ended status stdout => { status := status, stdout := stdout, files := s.files }
  | .call a => call s a

end Command

end SourceCensus
