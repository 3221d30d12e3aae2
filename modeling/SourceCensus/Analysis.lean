import SourceCensus.Graph.Closure
import SourceCensus.Language.Java
import SourceCensus.Settings.Sources
import SourceCensus.SourceFile
import SourceCensus.Walk

/-!
# Taking a census

An analysis walks the tree once and reads each file for its imports.  From these comes the dependency graph,
and its closure says which namespaces each file depends on.  Then each file is counted.  A file that cannot
be read has no imports and a missing count, and does not touch the reports on other files.

* `Analysis.prepare`: the root and the language that the settings name;
* `Analysis.graph`: the dependency graph of the files found;
* `Analysis.assemble`, `Analysis.report`: the report on one file, with its counts given and with them taken;
* `Census.take`: the whole analysis, with the records that it leaves;
* `Census.ofSources`: the same by settings that are gathered first.
-/

set_option autoImplicit false

namespace SourceCensus

/-- The records of the steps of an analysis. -/
def logStep (level : LogLevel) (text : String) : Run Unit := Run.log level "codetally.core" text

namespace Analysis

/-! ## Before the walk -/

def languageOf : Value → Except Stop Language
  | .string name =>
    match Language.find? name with
    | some lang => .ok lang
    | none =>
      .error (.failure (.unsupportedLanguage name (Language.registered.map (·.name))))
  | v => .error (.defect (.notText .language v.typeName))

/-- A tree that can be analyzed, and the language to read it by. -/
structure Subject where
  root : Path
  language : Language

/-- The root and the language; the root is looked at first. -/
def prepare (fs : FileSystem) (settings : Settings) (root : Path) : Run Subject := do
  let root ← Run.ofExcept (Root.validate fs root)
  let language ← Run.ofExcept (languageOf settings.language)
  logStep .debug s!"Initialized analyzer for {root.render} ({language.name})"
  return ⟨root, language⟩

/-- Names with commas between them, or a word for none. -/
def listed (names : List String) : String :=
  if names.isEmpty then "(none)" else ", ".intercalate names

def namespaces (fs : FileSystem) (settings : Settings) (root : Path) : Run (List String) := do
  let names ← Run.ofExcept (Root.namespaces fs settings.allowHiddenFiles.isTruthy root)
  logStep .info ("Root namespaces: " ++ listed names)
  return names

/-! ## The walk and the graph -/

/-- What the settings say about the walk. -/
def walkOptions (settings : Settings) : WalkOptions where
  globs := settings.excludePatterns.map Glob.ofValue
  followLinks := settings.followSymlinks.isTruthy
  allowHidden := settings.allowHiddenFiles.isTruthy

def files (fs : FileSystem) (settings : Settings) (root : Path) : Run (List Path) :=
  (Walk.ofRoot fs (walkOptions settings) root).toRun

/-- A file with its imports; there are none if it cannot be read. -/
def importsOf (fs : FileSystem) (lang : Language) (encoding : Value) (file : Path) :
    Run (Path × List String) := do
  match ← Run.ofDefect? (SourceFile.imports fs lang encoding file) with
  | .ok names => return (file, names)
  | .error e =>
    Run.log .debug "codetally.scanning.imports"
      s!"No imports read from {file.render}: {e.message}"
    return (file, [])

def graph (lang : Language) (root : Path) (namespaces : List String)
    (imports : Assoc Path (List String)) : Run (DependencyGraph Path) := do
  let g := DependencyGraph.ofImports imports root namespaces lang.extension
  Run.log .debug "codetally.graph.builder"
    s!"Dependency graph: {g.direct.length} files, {g.edgeCount} dependent edges"
  return g

/-! ## Reports -/

/-- What is known of the files before they are counted. -/
structure Findings where
  graph : DependencyGraph Path
  /-- The closed dependencies of each file. -/
  closure : Assoc Path (List String)

/-- The entry of a file in a table, sorted. -/
def sortedAt (t : Assoc Path (List String)) (file : Path) : List String :=
  ((Assoc.get? file t).getD []).mergeSort

/-- How a count is taken by the settings. -/
def countOptions (settings : Settings) (mode : CountMode) : SourceFile.CountOptions where
  mode := mode
  encoding := settings.encoding
  excludeAccessors := settings.excludeAccessors.isTruthy

def sourceLines (fs : FileSystem) (lang : Language) (settings : Settings) (file : Path) :
    Run LineCount := do
  let n ← Run.ofDefect? (SourceFile.measure fs lang (countOptions settings .baseline) file)
  match n.failure? with
  | some kind => logStep .warning s!"Cannot count lines of {file.render}: {kind.label}"
  | none => pure ()
  return n

/-- The enhanced count of a file, if the settings ask for it. -/
def enhancedLines (fs : FileSystem) (lang : Language) (settings : Settings) (file : Path) :
    Run (Option LineCount) := do
  if settings.enhanced.isTruthy then
    let n ← Run.ofDefect? (SourceFile.measure fs lang (countOptions settings .enhanced) file)
    return some n
  else return none

/-- The report on a file at a root that has been counted. -/
def assemble (root : Path) (findings : Findings) (file : Path) (source : LineCount)
    (enhanced : Option LineCount) : FileReport where
  path := file
  sourceLines := source
  enhancedLines := enhanced
  dependencies := sortedAt findings.closure file
  direct := sortedAt findings.graph.direct file
  imports := (Assoc.get? file findings.graph.imports).getD []
  rootNamespace := file.namespaceBelow? root

def report (fs : FileSystem) (settings : Settings) (subject : Subject) (findings : Findings)
    (file : Path) : Run FileReport := do
  let source ← sourceLines fs subject.language settings file
  let enhanced ← enhancedLines fs subject.language settings file
  return assemble subject.root findings file source enhanced

/-! ## After the reports -/

/-- A warning for each file name that several files share. -/
def warnOfCollisions (collisions : Assoc String (List Path)) : Run Unit :=
  Run.logAll <| collisions.map fun (name, paths) =>
    ⟨.warning, "codetally.core",
      "File name " ++ Text.quote name ++ s!" is shared by {paths.length} files"⟩

end Analysis

namespace Census

open Analysis

def take (fs : FileSystem) (settings : Settings) (root : Path) : Run Census := do
  let subject ← prepare fs settings root
  let namespaces ← Analysis.namespaces fs settings subject.root
  let files ← Analysis.files fs settings subject.root
  let imports ← files.mapM (importsOf fs subject.language settings.encoding)
  let g ← graph subject.language subject.root namespaces imports
  let reports ← files.mapM (report fs settings subject ⟨g, g.closure⟩)
  let census : Census := ⟨subject.root, namespaces, reports, collisionsOf files⟩
  warnOfCollisions census.collisions
  logStep .info <|
    s!"Analysis complete: {files.length} files, {g.edgeCount} dependent edges, " ++
      s!"{census.failedFiles.length} unreadable"
  return census

/-- The census of the tree at a root, by the settings that the sources give. -/
def ofSources (sources : SettingsSource) (root : Path) : Run Census := do
  let settings ← Run.ofExcept (Settings.load sources)
  Run.log .debug "codetally.api" ("Loaded config: " ++ settings.render)
  take sources.files settings root

end Census

end SourceCensus
