import SourceCensus.Settings

/-!
# Settings from the environment

A setting can be given by a variable named after it.  The variable's text is read by the kind of the
setting: a flag by one of eight words in any case, a text as it is.  A list cannot be written in one
variable, so such a variable is not looked at.

* `ValueKind.read`: a text read as a value of a kind;
* `Environment.settings`: the settings that variables give.
-/

set_option autoImplicit false

namespace SourceCensus

/-- What kind of value a setting has. -/
inductive ValueKind where
  | flag
  | whole
  | fraction
  | text
  | list
  deriving Repr, DecidableEq

namespace ValueKind

/-- The words for a yes. -/
def yesWords : List String := ["true", "1", "yes", "on"]

/-- The words for a no. -/
def noWords : List String := ["false", "0", "no", "off"]

/-- The text read as a value of the kind, if values of the kind can be read from one text.  Only capital
letters without accents have a counterpart in the eight words, so lowering those is enough. -/
def read (kind : ValueKind) (text : String) : Except Defect (Option Value) :=
  match kind with
  | flag =>
    let word := text.map Char.toLower
    if yesWords.contains word then .ok (some (.bool true))
    else if noWords.contains word then .ok (some (.bool false))
    else .error (.notBoolean text)
  | whole =>
    match Numeral.read text with
    | .ok n => .ok (some (.int n))
    | .error fault => .error (.notNumeral text fault)
  | .text => .ok (some (.string text))
  | fraction | list => .ok none

end ValueKind

/-- The kind of a setting's values. -/
def Setting.kind : Setting → ValueKind
  | language | encoding | verbosity => .text
  | enhanced | excludeAccessors | followSymlinks | allowHiddenFiles => .flag
  | excludePatterns => .list

/-- Variables and their texts. -/
abbrev Environment := Assoc String String

namespace Environment

/-- The variable that gives a setting. -/
def variableOf (s : Setting) : String := "CODETALLY_" ++ s.key.map Char.toUpper

/-- What the environment says about one setting. -/
def valueOf? (env : Environment) (s : Setting) : Except Failure (Option Value) :=
  match Assoc.get? (variableOf s) env with
  | none => .ok none
  | some text =>
    match s.kind.read text with
    | .ok v => .ok v
    | .error d => .error (.invalidSetting s.key text (variableOf s ++ ": " ++ d.message))

/-- The settings that the environment gives, in their order; the first that cannot be read is reported. -/
def settings (env : Environment) : Except Failure (Assoc String Value) := do
  let found ← Setting.all.mapM fun s => do
    let v ← env.valueOf? s
    return v.map fun v => (s.key, v)
  return found.filterMap id

end Environment

end SourceCensus
