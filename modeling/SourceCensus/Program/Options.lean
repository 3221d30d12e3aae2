import SourceCensus.Cli.Arguments
import SourceCensus.FileSystem.Basic

/-!
# Reading the command line

The program reads its command line itself.  A long name stands alone, with its value behind it or behind an
equals sign; short names may stand together behind one hyphen, and what follows the name of an option in such
a group is its value.  An option that comes again replaces its value, except the globs, which add up.  What
is neither a flag nor an option, nor the value of one, is a misuse.  Help is shown before anything else is
looked at.

Some values are paths, and whether they are acceptable depends on what is there.

* `Options.ofList?`: the options read;
* `Options.isAcceptable`: whether the paths among them can be used;
* `Program.parse`: what becomes of the command line.
-/

set_option autoImplicit false

namespace SourceCensus.Program

/-- A switch that takes no value. -/
inductive Flag where
  | noEnhanced
  | keepAccessors
  | verbose
  | quiet
  | version
  | help
  deriving Repr, DecidableEq

/-- A switch that takes a value. -/
inductive Parameter where
  | inputDirectory
  | format
  | output
  | config
  | exclude
  | logFile
  deriving Repr, DecidableEq

/-- What is given on the command line. -/
structure Options where
  flags : List Flag := []
  inputDirectory : Option String := none
  format : Option String := none
  output : Option String := none
  config : Option String := none
  exclude : List String := []
  logFile : Option String := none
  deriving Repr, DecidableEq

namespace Options

/-! ## Names -/

/-- The flags by their long names. -/
def longFlags : List (String × Flag) := [
  ("--no-enhanced", .noEnhanced), ("--keep-accessors", .keepAccessors), ("--verbose", .verbose),
  ("--quiet", .quiet), ("--version", .version), ("--help", .help)]

/-- The options by their long names. -/
def longParameters : List (String × Parameter) := [
  ("--input-dir", .inputDirectory), ("--format", .format), ("--output", .output),
  ("--config", .config), ("--exclude", .exclude), ("--log-file", .logFile)]

/-- The flags by their short names. -/
def shortFlags : List (Char × Flag) := [('v', .verbose), ('q', .quiet)]

/-- The options by their short names. -/
def shortParameters : List (Char × Parameter) := [
  ('i', .inputDirectory), ('f', .format), ('o', .output), ('c', .config), ('x', .exclude)]

/-! ## One argument -/

/-- What one argument switches: flags, and an option at the end with the value that is attached to it. -/
structure Switches where
  flags : List Flag := []
  parameter : Option (Parameter × Option String) := none
  deriving Repr, DecidableEq

/-- What short names behind one hyphen switch. -/
def readShort? : List Char → Option Switches
  | [] => some {}
  | c :: s =>
    match shortFlags.lookup c with
    | some flag => (readShort? s).map fun rest => { rest with flags := flag :: rest.flags }
    | none =>
      (shortParameters.lookup c).map fun p =>
        { parameter := some (p, if s.isEmpty then none else some (String.ofList s)) }

/-- A name and the value that an equals sign attaches to it. -/
def splitValue (s : List Char) : String × Option String :=
  let name := s.takeWhile (· != '=')
  match s.drop name.length with
  | _ :: value => (String.ofList name, some (String.ofList value))
  | [] => (String.ofList name, none)

/-- What an argument that starts with a hyphen switches. -/
def readSwitches? (arg : List Char) : Option Switches :=
  let (name, value) := splitValue arg
  match longParameters.lookup name with
  | some p => some { parameter := some (p, value) }
  | none =>
    match longFlags.lookup name with
    | some flag => if value.isNone then some { flags := [flag] } else none
    | none => if "--".toList.isPrefixOf arg then none else readShort? (arg.drop 1)

/-! ## All arguments -/

/-- The options with the value of one. -/
def set (o : Options) (value : String) : Parameter → Options
  | .inputDirectory => { o with inputDirectory := some value }
  | .format => { o with format := some value }
  | .output => { o with output := some value }
  | .config => { o with config := some value }
  | .exclude => { o with exclude := o.exclude ++ [value] }
  | .logFile => { o with logFile := some value }

/-- The options with more flags. -/
def raise (o : Options) (flags : List Flag) : Options := { o with flags := o.flags ++ flags }

/-- Whether a flag is given. -/
def has (o : Options) (flag : Flag) : Bool := o.flags.contains flag

/-- Whether an argument is a switch. -/
def isSwitch (arg : String) : Bool := arg.toList.head? = some '-' && arg ≠ "-"

/-- The options with those of a list.  Two hyphens end the switches. -/
def readFrom? (o : Options) : List String → Option Options
  | [] => some o
  | arg :: rest =>
    if arg = "--" then (if rest.isEmpty then some o else none)
    else if isSwitch arg then
      match readSwitches? arg.toList with
      | none => none
      | some ⟨flags, none⟩ => readFrom? (o.raise flags) rest
      | some ⟨flags, some (p, some value)⟩ => readFrom? ((o.raise flags).set value p) rest
      | some ⟨flags, some (p, none)⟩ =>
        match rest with
        | [] => none
        | value :: rest => readFrom? ((o.raise flags).set value p) rest
    else none

/-- The options of a list. -/
def ofList? (args : List String) : Option Options := readFrom? {} args

/-! ## Paths -/

/-- The directory to look at, the usual one if none is given. -/
def inputText (o : Options) : String :=
  o.inputDirectory.getD ({} : Arguments).inputDirectory.render

/-- Which entries a path may lead to. -/
structure PathRule where
  mustExist : Bool := false
  file : Bool := true
  directory : Bool := true

/-- Where a path as it is typed leads: the empty one leads nowhere, and a slash at its end asks for a
directory. -/
def lookUpText (fs : FileSystem) (text : String) : Except Errno Entry :=
  if text.isEmpty then .error .notFound
  else
    let start := if text.toList.head? = some '/' then [] else fs.workingDirectory
    match fs.descendWithin true FileSystem.maxLinks start (FileSystem.targetParts text) with
    | .ok (.present _ entry) => .ok entry
    | .ok (.absent _) => .error .notFound
    | .error e => .error e

/-- Whether a path as it is typed keeps the rule.  What is there must be readable. -/
def PathRule.allows (rule : PathRule) (fs : FileSystem) (text : String) : Bool :=
  match lookUpText fs text with
  | .error _ => !rule.mustExist
  | .ok entry =>
    (match entry with
      | .file _ => rule.file
      | .directory => rule.directory
      | _ => true) && fs.isReadable (Path.ofString text)

/-- Whether the paths can be used: the input is no file, output and log are no directories, and the
configuration is a file that is there. -/
def isAcceptable (o : Options) (fs : FileSystem) : Bool :=
  PathRule.allows { file := false } fs o.inputText &&
    o.output.all (PathRule.allows { directory := false } fs) &&
    o.config.all (PathRule.allows { mustExist := true, directory := false } fs) &&
    o.logFile.all (PathRule.allows { directory := false } fs)

/-! ## The call -/

/-- What the command is called with; what is not given is left as it is. -/
def arguments (o : Options) : Arguments :=
  let usual : Arguments := {}
  { inputDirectory := Path.ofString o.inputText
    format := o.format.getD usual.format
    output := o.output.map Path.ofString
    config := o.config.map Path.ofString
    noEnhanced := o.has .noEnhanced
    keepAccessors := o.has .keepAccessors
    exclude := o.exclude
    verbose := o.has .verbose
    quiet := o.has .quiet
    logFile := o.logFile.map Path.ofString
    version := o.has .version }

/-- The switches that there are. -/
def help : String :=
  "Usage: codetally [OPTIONS]\n" ++
    String.join ((longParameters.map (·.1) ++ longFlags.map (·.1)).map fun name => "  " ++ name ++ "\n")

end Options

/-- What becomes of a command line in a file system. -/
def parse (fs : FileSystem) (args : List String) : Invocation :=
  match Options.ofList? args with
  | none => .ended 2 ""
  | some o =>
    if o.has .help then .ended 0 Options.help
    else if o.isAcceptable fs then .call o.arguments
    else .ended 2 ""

end SourceCensus.Program
