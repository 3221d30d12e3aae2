import SourceCensus.Path

/-!
# Arguments of the command

A library reads the command line: which switches there are, what stands for their values, and whether the
paths among them can be used is its affair, and so are the help that it shows and the misuse that it reports.
The command is called with what was read, or it is not called at all.

* `Arguments`: what the command is called with;
* `Invocation`: what becomes of a command line.
-/

set_option autoImplicit false

namespace SourceCensus

/-- What the command is called with. -/
structure Arguments where
  inputDirectory : Path := Path.ofString "../CodeExamples/src/main/java"
  format : String := "table"
  /-- The file for the result, which is printed if there is none. -/
  output : Option Path := none
  config : Option Path := none
  noEnhanced : Bool := false
  keepAccessors : Bool := false
  exclude : List String := []
  verbose : Bool := false
  quiet : Bool := false
  logFile : Option Path := none
  version : Bool := false
  deriving Repr, DecidableEq

/-- What becomes of a command line. -/
inductive Invocation where
  | call (a : Arguments)
  /-- The command is not called.  Help has been shown, or a misuse has been reported. -/
  | ended (status : Nat) (stdout : String)
  deriving Repr, DecidableEq

end SourceCensus
