import SourceCensus.Encoding.Utf8
import SourceCensus.FileSystem.Basic
import SourceCensus.Settings.Environment
import SourceCensus.Toml.Document

/-!
# Where settings come from

Settings are gathered from up to five sources: a file in the home directory, a file in the working
directory, a file that the caller names, the environment, and the caller.  A later source outweighs the
earlier ones key by key, and only what comes out is checked.

* `SettingsSource`: the sources of one run;
* `Settings.fromFile`: the settings that a file gives;
* `Settings.ofCaller`: the settings that a caller gives, with two flags in place of the verbosity;
* `Settings.gather`: all of them in one table, where `get?_mergeAll` says which value a key has;
* `Settings.load`: the settings.
-/

set_option autoImplicit false

namespace SourceCensus

/-- What settings are gathered from. -/
structure SettingsSource where
  files : FileSystem
  home : Path
  environment : Environment := []
  /-- The file that the caller names. -/
  configFile : Option Path := none
  /-- What the caller gives. -/
  overrides : Assoc String Value := []
  /-- The words in which a reader of documents refuses bytes that hold none. -/
  complaint : List UInt8 → String

namespace Settings

/-! ## Files -/

/-- The settings in a document: those of its own table if it has one, else all of it. -/
def sectionOf (document : Assoc String Value) : Assoc String Value :=
  match Assoc.get? "codetally" document with
  | some (.table members) => members
  | _ => document

/-- The document in a file, if the file can be read and holds one. -/
def documentAt? (fs : FileSystem) (p : Path) : Option (Assoc String Value) :=
  match fs.content p with
  | .ok ⟨bytes, none⟩ => (Utf8.decode? bytes).bind Toml.read?
  | _ => none

/-- Why there is no document in the file at the path: the system refuses it, or the reader does. -/
def faultAt (s : SettingsSource) (p : Path) : String :=
  match s.files.content p with
  | .ok ⟨bytes, none⟩ => s.complaint bytes
  | .ok ⟨_, some e⟩ => OsError.message ⟨e, none⟩
  | .error e => OsError.message ⟨e, some p.render⟩

/-- The settings in the file at the path; `label` says which file it is. -/
def fromFile (s : SettingsSource) (label : String) (p : Path) : Except Stop (Assoc String Value) :=
  match documentAt? s.files p with
  | some document => .ok (sectionOf document)
  | none =>
    .error (.failure (.configuration
      ("Invalid " ++ label ++ " '" ++ p.render ++ "': " ++ faultAt s p)))

/-- Whether a file is there. -/
def isThere (fs : FileSystem) (p : Path) : Except Stop Bool :=
  match fs.exists? p with
  | .ok b => .ok b
  | .error e => .error (.defect (.refused e))

/-- The settings in the file at the path, none if there is no such file. -/
def fromFileIfThere (s : SettingsSource) (label : String) (p : Path) :
    Except Stop (Assoc String Value) := do
  if ← isThere s.files p then fromFile s label p else return []

/-- The settings in the file that the caller names. -/
def fromNamedFile (s : SettingsSource) : Except Stop (Assoc String Value) :=
  match s.configFile with
  | none => .ok []
  | some p => do
    if ← isThere s.files p then fromFile s "config file" p
    else .error (.failure (.configuration ("Config file not found: " ++ p.render)))

/-- The file in the home directory. -/
def globalFile (s : SettingsSource) : Path := s.home.child ".codetally.toml"

/-- The file in the working directory. -/
def projectFile (s : SettingsSource) : Path :=
  Path.child ⟨.absolute, s.files.workingDirectory⟩ "codetally.toml"

/-! ## The caller -/

/-- The table without a key. -/
def without (k : String) (t : Assoc String Value) : Assoc String Value := t.filter (·.1 ≠ k)

/-- Whether a flag is given and is a yes. -/
def isRaised (k : String) (t : Assoc String Value) : Bool :=
  match Assoc.get? k t with
  | some v => v.isTruthy
  | none => false

/-- The table without a flag, which sets the verbosity if it is a yes. -/
def foldFlag (v : Verbosity) (t : Assoc String Value) : Assoc String Value :=
  let rest := without v.word t
  if isRaised v.word t then Assoc.put Setting.verbosity.key (.string v.word) rest else rest

/-- Whether the value says something. -/
def isGiven : Value → Bool
  | .null => false
  | _ => true

/-- The settings that a caller gives; a value that says nothing is left out. -/
def ofCaller (overrides : Assoc String Value) : Assoc String Value :=
  (foldFlag .quiet (foldFlag .verbose overrides)).filter fun kv => isGiven kv.2

/-! ## All sources -/

/-- What the sources give, each one outweighed by those behind it. -/
def layers (s : SettingsSource) : Except Stop (List (Assoc String Value)) := do
  let fromHome ← fromFileIfThere s "global config" (globalFile s)
  let fromProject ← fromFileIfThere s "project config" (projectFile s)
  let fromNamed ← fromNamedFile s
  match s.environment.settings with
  | .error f => .error (.failure f)
  | .ok fromEnvironment =>
    return [fromHome, fromProject, fromNamed, fromEnvironment, ofCaller s.overrides]

/-- One table of several. -/
def mergeAll (layers : List (Assoc String Value)) : Assoc String Value :=
  layers.foldl Assoc.merge []

/-- What all sources together give. -/
def gather (s : SettingsSource) : Except Stop (Assoc String Value) := (layers s).map mergeAll

/-- A key that cannot be set is a fault of the configuration. -/
def blame : Stop → Stop
  | .defect d => .failure (.configuration ("Invalid configuration: " ++ d.message))
  | stop => stop

/-- The settings that the sources give. -/
def load (s : SettingsSource) : Except Stop Settings := do
  let table ← gather s
  (ofTable table).mapError blame

end Settings

end SourceCensus
