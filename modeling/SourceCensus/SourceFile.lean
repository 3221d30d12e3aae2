import SourceCensus.Count
import SourceCensus.Encoding
import SourceCensus.FileSystem.Basic
import SourceCensus.Import
import SourceCensus.Report
import SourceCensus.Text.Layout
import SourceCensus.Value

/-!
# Reading source files

A source file is opened, decoded and split into lines; counts and imports are taken of the lines.  When the
system refuses to open or read it, the count is missing and says why, and there are no imports.  Nothing
that was read before the refusal is kept.  What else can go wrong is a defect.

* `SourceFile.decoder`: how files in the encoding of a name are decoded;
* `SourceFile.lines`: the lines of a file;
* `SourceFile.count`: their count, a refusal being a failure of the file's own;
* `SourceFile.measure`: the same, a refusal being a missing count;
* `SourceFile.imports`: what the file imports, or why nothing was read.
-/

set_option autoImplicit false

namespace SourceCensus.SourceFile

/-- How files in the encoding of the name are decoded.  The other codecs that are installed see whether reading
broke off. -/
def decoder (fs : FileSystem) (name : String) : Except Defect Codec :=
  match Encoding.ofName? name with
  | some e => .ok fun bytes _ => e.decode bytes
  | none => fs.codec name

/-- The lines of the file at the path.  That it can be opened is looked at before its encoding is. -/
def lines (fs : FileSystem) (encoding : Value) (p : Path) : Except Defect (List (List Char)) :=
  match encoding with
  | .string name =>
    match fs.readSource p with
    | .error e => .error (.refused e)
    | .ok content => do
      let decode ← decoder fs name
      let text ← decode content.bytes content.broken.isNone
      match content.broken with
      | some e => .error (.refused ⟨e, none⟩)
      | none => return Text.lines text
  | v => .error (.notText .encoding v.typeName)

/-- How a count is taken. -/
structure CountOptions where
  mode : CountMode := .baseline
  encoding : Value := .string "utf-8"
  /-- Whether the enhanced count leaves accessors out. -/
  excludeAccessors : Bool := true

/-- The count of the file, whatever goes wrong being a defect. -/
def countLinesOf (fs : FileSystem) (lang : Language) (options : CountOptions) (p : Path) :
    Except Defect Nat := do
  countLines lang options.mode options.excludeAccessors (← lines fs options.encoding p)

/-- The count of the file. -/
def count (fs : FileSystem) (lang : Language) (options : CountOptions) (p : Path) :
    Except Stop Nat :=
  match countLinesOf fs lang options p with
  | .ok n => .ok n
  | .error (.refused e) => .error (.failure (.ofRefusal p.render e))
  | .error d => .error (.defect d)

/-- The count of the file, or the kind of refusal. -/
def measure (fs : FileSystem) (lang : Language) (options : CountOptions) (p : Path) :
    Except Defect LineCount :=
  match countLinesOf fs lang options p with
  | .ok n => .ok (.counted n)
  | .error (.refused e) => .ok (.failed (FailureKind.ofErrno e.errno))
  | .error d => .error d

/-- What a file imports, or the refusal because of which it was not read. -/
def imports (fs : FileSystem) (lang : Language) (encoding : Value) (p : Path) :
    Except Defect (Except OsError (List String)) :=
  match lines fs encoding p with
  | .ok lines => .ok (.ok (Import.ofLines lang lines))
  | .error (.refused e) => .ok (.error e)
  | .error d => .error d

end SourceCensus.SourceFile
