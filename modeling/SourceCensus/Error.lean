import SourceCensus.Text.Numeral

/-!
# Errors

What can go wrong comes in two groups.

* A `Failure` is foreseen: a root that cannot be analyzed, a setting that makes no sense, a file that
  cannot be read.  It has a summary and named details, and belongs to a family of failures.
* A `Defect` is not foreseen by the analysis and stops it wherever it happens: a pattern without
  components, an encoding nobody knows, a directory entry that the system cannot resolve.

`Failure.message` and `Defect.message` are the only places where their wording stands.
-/

set_option autoImplicit false

namespace SourceCensus

open Text

/-! ## The operating system's refusals -/

/-- Why the operating system refuses. -/
inductive Errno where
  | notFound
  | inputOutput
  | denied
  | notDirectory
  | isDirectory
  | fileTooLarge
  | noSpace
  | readOnly
  | linkLoop
  deriving Repr, DecidableEq

namespace Errno

/-- The system's number of the refusal. -/
def number : Errno → Nat
  | notFound => 2
  | inputOutput => 5
  | denied => 13
  | notDirectory => 20
  | isDirectory => 21
  | fileTooLarge => 27
  | noSpace => 28
  | readOnly => 30
  | linkLoop => 40

/-- The system's words for the refusal. -/
def text : Errno → String
  | notFound => "No such file or directory"
  | inputOutput => "Input/output error"
  | denied => "Permission denied"
  | notDirectory => "Not a directory"
  | isDirectory => "Is a directory"
  | fileTooLarge => "File too large"
  | noSpace => "No space left on device"
  | readOnly => "Read-only file system"
  | linkLoop => "Too many levels of symbolic links"

end Errno

/-- A refusal of the operating system, mostly at a path. -/
structure OsError where
  errno : Errno
  path : Option String
  deriving Repr, DecidableEq

/-- Number and words of the refusal, and its path. -/
def OsError.message (e : OsError) : String :=
  s!"[Errno {e.errno.number}] {e.errno.text}" ++
    match e.path with
    | some path => ": " ++ quote path
    | none => ""

/-! ## Failures -/

/-- Why a file has no line count. -/
inductive FailureKind where
  | notAccessible
  | notFound
  | readFailure
  deriving Repr, DecidableEq

namespace FailureKind

/-- The negative number that stands for the missing count where a number is expected. -/
def sentinel : FailureKind → Int
  | notAccessible => -42
  | notFound => -37
  | readFailure => -73

/-- The name of the kind in reports and log records. -/
def label : FailureKind → String
  | notAccessible => "not_accessible"
  | notFound => "not_found"
  | readFailure => "read_failure"

end FailureKind

/-- A family that failures belong to. -/
inductive Family where
  | any
  | analysis
  | fileAccess
  | lineCount
  | notAccessible
  | sourceNotFound
  | readFailure
  | unsupportedLanguage
  | configuration
  | invalidPath
  | invalidSetting
  deriving Repr, DecidableEq

namespace Family

/-- The family that a family is part of. -/
def parent? : Family → Option Family
  | any => none
  | analysis | configuration => some any
  | fileAccess | unsupportedLanguage => some analysis
  | lineCount => some fileAccess
  | notAccessible | sourceNotFound | readFailure => some lineCount
  | invalidPath | invalidSetting => some configuration

/-- The family and those it is part of, from the narrowest to the widest. -/
def lineage : Family → List Family
  | any => [any]
  | analysis => [analysis, any]
  | configuration => [configuration, any]
  | fileAccess => [fileAccess, analysis, any]
  | unsupportedLanguage => [unsupportedLanguage, analysis, any]
  | lineCount => [lineCount, fileAccess, analysis, any]
  | notAccessible => [notAccessible, lineCount, fileAccess, analysis, any]
  | sourceNotFound => [sourceNotFound, lineCount, fileAccess, analysis, any]
  | readFailure => [readFailure, lineCount, fileAccess, analysis, any]
  | invalidPath => [invalidPath, configuration, any]
  | invalidSetting => [invalidSetting, configuration, any]

/-- A lineage starts with the family and goes on with its parent's lineage. -/
theorem lineage_eq (f : Family) :
    f.lineage = f :: (f.parent?.map lineage).getD [] := by
  cases f <;> rfl

/-- The name under which a failure of the family is logged. -/
def label : Family → String
  | any => "CodeTallyError"
  | analysis => "AnalysisError"
  | fileAccess => "FileAccessError"
  | lineCount => "LineCountError"
  | notAccessible => "FileNotAccessibleError"
  | sourceNotFound => "SourceFileNotFoundError"
  | readFailure => "ReadFailureError"
  | unsupportedLanguage => "UnsupportedLanguageError"
  | configuration => "ConfigurationError"
  | invalidPath => "InvalidPathError"
  | invalidSetting => "InvalidConfigError"

/-- The kind of missing count that failures of the family stand for. -/
def kind? : Family → Option FailureKind
  | notAccessible => some .notAccessible
  | sourceNotFound => some .notFound
  | lineCount | readFailure => some .readFailure
  | _ => none

end Family

/-- The kind of missing count that a refusal leads to. -/
def FailureKind.ofErrno : Errno → FailureKind
  | .denied => notAccessible
  | .notFound => notFound
  | _ => readFailure

/-- The family of the failures of one kind to count. -/
def FailureKind.family : FailureKind → Family
  | notAccessible => .notAccessible
  | notFound => .sourceNotFound
  | readFailure => .readFailure

/-- Something foreseen that went wrong: its family, a summary and named details. -/
structure Failure where
  family : Family
  summary : String
  details : List (String × String) := []
  deriving Repr, DecidableEq

namespace Failure

/-- One detail in words. -/
def detailText (detail : String × String) : String := detail.1 ++ "=" ++ detail.2

/-- The summary, with the details in parentheses when there are any. -/
def message (f : Failure) : String :=
  if f.details.isEmpty then f.summary
  else f.summary ++ " (" ++ ", ".intercalate (f.details.map detailText) ++ ")"

/-- A file that cannot be accessed or read. -/
def ofFile (family : Family) (path reason : String) : Failure where
  family := family
  summary := s!"Cannot access file: {path}"
  details := [("filepath", path), ("reason", reason)]

/-- The words for a kind of missing count. -/
def kindText : FailureKind → String
  | .notAccessible => "Permission denied"
  | .notFound => "File not found"
  | .readFailure => "OS error"

/-- A file whose reading the system refuses; the refusal decides the family. -/
def ofRefusal (path : String) (e : OsError) : Failure :=
  let kind := FailureKind.ofErrno e.errno
  ofFile kind.family path (kindText kind ++ ": " ++ e.message)

/-- A language nobody registered. -/
def unsupportedLanguage (name : String) (supported : List String) : Failure where
  family := .unsupportedLanguage
  summary := s!"Unsupported language: {name}"
  details := [("language", name), ("supported", ", ".intercalate supported)]

/-- A path that cannot be analyzed. -/
def invalidPath (path reason : String) : Failure where
  family := .invalidPath
  summary := s!"Invalid path: {path}"
  details := [("path", path), ("reason", reason)]

/-- A setting whose value makes no sense; `value` is the value in words. -/
def invalidSetting (key value reason : String) : Failure where
  family := .invalidSetting
  summary := s!"Invalid configuration for {key}: {value}"
  details := [("key", key), ("value", value), ("reason", reason)]

/-- A configuration that cannot be used. -/
def configuration (summary : String) : Failure where
  family := .configuration
  summary := summary

end Failure

/-! ## Defects -/

/-- What a text is wanted for. -/
inductive TextUse where
  | language
  | encoding
  | pattern
  deriving Repr, DecidableEq

/-- What is said when something of type `type` stands where a text is wanted. -/
def TextUse.message (type : String) : TextUse → String
  | language => s!"'{type}' object has no attribute 'lower'"
  | encoding => s!"open() argument 'encoding' must be str or None, not {type}"
  | pattern =>
    if type = "list" then s!"intern() argument must be str, not {type}"
    else s!"'{type}' object is not subscriptable"

/-- Something that was not foreseen. -/
inductive Defect where
  /-- The language has no line comment marker. -/
  | noLineComment
  /-- A candidate index lies beyond the lines. -/
  | noSuchLine
  /-- A glob has no components. -/
  | emptyGlob
  /-- A path does not lie below a root. -/
  | notBelow (path root : String)
  /-- There is no count mode of that name. -/
  | unknownMode (name : String)
  /-- There is no output format of that name. -/
  | unknownFormat (name : String) (known : List String)
  /-- There is no setting of that name. -/
  | unknownSetting (name : String)
  /-- A name is taken and cannot be that of a setting. -/
  | takenSetting (name : String)
  /-- A text is neither a yes nor a no. -/
  | notBoolean (text : String)
  /-- A text is no numeral. -/
  | notNumeral (text : String) (fault : Numeral.Fault)
  /-- A value of some type stands where a text is wanted. -/
  | notText (use : TextUse) (type : String)
  /-- There is no encoding of that name. -/
  | unknownEncoding (name : String)
  /-- A text in two-byte units does not say in which order their bytes stand. -/
  | noByteOrder (bits : Nat)
  /-- The operating system refuses. -/
  | refused (e : OsError)
  /-- A library that the program is handed gives up, in its own words. -/
  | foreign (text : String)
  deriving Repr, DecidableEq

/-- The wording of a defect. -/
def Defect.message : Defect → String
  | noLineComment => "string index out of range"
  | noSuchLine => "list index out of range"
  | emptyGlob => "empty pattern"
  | notBelow path root =>
    s!"{quote path} is not in the subpath of {quote root}" ++
      " OR one path is relative and the other is absolute."
  | unknownMode name => s!"{quote name} is not a valid CountMode"
  | unknownFormat name known =>
    s!"Unknown formatter: {quote name}. Choose from: " ++ ", ".intercalate known
  | unknownSetting name =>
    s!"AnalysisConfig.__init__() got an unexpected keyword argument '{name}'"
  | takenSetting name =>
    s!"AnalysisConfig.__init__() got multiple values for argument '{name}'"
  | notBoolean text => s!"expected true/false, got '{text}'"
  | notNumeral text fault => fault.message text
  | notText use type => use.message type
  | unknownEncoding name => s!"unknown encoding: {name}"
  | noByteOrder bits => s!"UTF-{bits} stream does not start with BOM"
  | refused e => e.message
  | foreign text => text

/-- What stops a run: something foreseen or something not foreseen. -/
inductive Stop where
  | failure (f : Failure)
  | defect (d : Defect)
  deriving Repr, DecidableEq

/-- The wording of what stopped a run. -/
def Stop.message : Stop → String
  | failure f => f.message
  | defect d => d.message

end SourceCensus
