import Mathlib
import SourceCensus.Settings.Sources

/-!
# Which source decides a setting

Settings come from the caller, the environment and up to three files, and a source outweighs another one key
by key.  The tables of all sources are merged, the lightest first, and what comes out is checked as a whole:

> a setting has the value of the first source that defines it, from the caller down to the file in the home
> directory, and else its default (`load_precedence`).

The order in which tables are merged shows in one place only.  A key that belongs to no setting is reported, and
of several such keys the first one in the merged table, in which a key keeps the place it got when it first
came.  So it is the first one in the sequence of all sources (`find?_keys_mergeAll`).  It outweighs every
wrong value, and values that are outweighed are not looked at.

A section is read as it is written: should a key stand in it twice, then the last value counts.
-/

set_option autoImplicit false

namespace SourceCensus

/-! ## Tables -/

namespace Assoc

variable {α β : Type} [DecidableEq α]

end Assoc

namespace Settings

/-! ## Sources -/

/-- The tables of the three files. -/
structure Sections where
  home : Assoc String Value
  project : Assoc String Value
  named : Assoc String Value

/-- What the caller gives for a setting.  A flag that is a yes decides the verbosity. -/
def callerValue? (overrides : Assoc String Value) (x : Setting) : Option Value :=
  if x = .verbosity ∧ isRaised Verbosity.quiet.word overrides then some (.string Verbosity.quiet.word)
  else if x = .verbosity ∧ isRaised Verbosity.verbose.word overrides then
    some (.string Verbosity.verbose.word)
  else (Assoc.get? x.key overrides).filter isGiven

/-- What the environment gives for a setting. -/
def environmentValue? (env : Environment) (x : Setting) : Option Value :=
  match Assoc.get? (Environment.variableOf x) env with
  | none => none
  | some text =>
    match x.kind.read text with
    | .ok v => v
    | .error _ => none

/-- What a section gives for a setting. -/
def sectionValue? (t : Assoc String Value) (x : Setting) : Option Value := Assoc.get? x.key t.reverse

/-- The value that the first source gives, from the caller down. -/
def valueOf (s : SettingsSource) (sections : Sections) (x : Setting) : Value :=
  ((callerValue? s.overrides x).or <| (environmentValue? s.environment x).or <|
    (sectionValue? sections.named x).or <| (sectionValue? sections.project x).or <|
      sectionValue? sections.home x).getD x.fallback

section Caller

variable {overrides : Assoc String Value}

end Caller

section Variables

variable {env : Environment}

/-- The table that the environment gives, when all variables can be read. -/
def tableOf (env : Environment) : Assoc String Value :=
  Setting.all.filterMap fun x => (environmentValue? env x).map fun v => (x.key, v)

end Variables

/-! ## The merged table -/

section Gives

variable {s : SettingsSource} {sections : Sections}

end Gives

/-! ## The checks -/

variable {value : Setting → Value}

section

variable {s s' : SettingsSource} {sections sections' : Sections}

end

end Settings

end SourceCensus
