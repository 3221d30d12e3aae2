import SourceCensus.Error
import SourceCensus.Value

/-!
# Settings

One analysis has eight settings.  They come as a table of dynamic values, in which any of them may be absent
and then has its default.  Four rules are checked, in this order: the language and the encoding are not
empty, the verbosity is one of three words, and the exclude patterns are a list.  What a value means where
it is used (is it a yes, is it a text) is decided there.

* `Setting`: the settings, their keys and defaults;
* `Settings.ofTable`: the settings that a table gives, or what is wrong with it;
* `Settings.get`, `Settings.render`: the way back to values, and the settings in one line.
-/

set_option autoImplicit false

namespace SourceCensus

/-! ## Verbosity -/

/-- How much is logged. -/
inductive Verbosity where
  | quiet
  | normal
  | verbose
  deriving Repr, DecidableEq

namespace Verbosity

/-- The word for a verbosity. -/
def word : Verbosity → String
  | quiet => "quiet"
  | normal => "normal"
  | verbose => "verbose"

/-- All of them, from the least to the most. -/
def all : List Verbosity := [quiet, normal, verbose]

/-- The verbosity that a value names. -/
def ofValue? : Value → Option Verbosity
  | .string s => all.find? (·.word = s)
  | _ => none

end Verbosity

/-! ## The eight settings -/

/-- A setting. -/
inductive Setting where
  | language
  | encoding
  | enhanced
  | excludeAccessors
  | excludePatterns
  | followSymlinks
  | allowHiddenFiles
  | verbosity
  deriving Repr, DecidableEq

namespace Setting

/-- All settings in their order. -/
def all : List Setting :=
  [language, encoding, enhanced, excludeAccessors, excludePatterns, followSymlinks, allowHiddenFiles,
    verbosity]

theorem mem_all (s : Setting) : s ∈ all := by cases s <;> simp [all]

/-- The key of a setting in tables. -/
def key : Setting → String
  | language => "language"
  | encoding => "encoding"
  | enhanced => "enhanced"
  | excludeAccessors => "exclude_accessors"
  | excludePatterns => "exclude_patterns"
  | followSymlinks => "follow_symlinks"
  | allowHiddenFiles => "allow_hidden_files"
  | verbosity => "verbosity"

/-- Whether a key belongs to a setting. -/
def isKey (k : String) : Bool := all.any (·.key = k)

theorem isKey_iff (k : String) : isKey k = true ↔ ∃ s : Setting, s.key = k := by
  simp only [isKey, List.any_eq_true, decide_eq_true_eq]
  exact ⟨fun ⟨s, _, h⟩ => ⟨s, h⟩, fun ⟨s, h⟩ => ⟨s, mem_all s, h⟩⟩

/-- The value of a setting that nobody gave. -/
def fallback : Setting → Value
  | language => .string "java"
  | encoding => .string "utf-8"
  | enhanced => .bool true
  | excludeAccessors => .bool true
  | excludePatterns => .list []
  | followSymlinks => .bool false
  | allowHiddenFiles => .bool true
  | verbosity => .string Verbosity.normal.word

end Setting

/-- The settings of one analysis. -/
structure Settings where
  /-- The language whose syntax is read. -/
  language : Value
  /-- The encoding of the files. -/
  encoding : Value
  /-- Whether the enhanced count is taken as well. -/
  enhanced : Value
  /-- Whether the enhanced count leaves accessors out. -/
  excludeAccessors : Value
  /-- Globs of files that are left out. -/
  excludePatterns : List Value
  /-- Whether links to directories are followed. -/
  followSymlinks : Value
  /-- Whether names that start with a dot are included. -/
  allowHiddenFiles : Value
  verbosity : Verbosity
  deriving Repr

namespace Settings

/-- The value of a setting. -/
def get (s : Settings) : Setting → Value
  | .language => s.language
  | .encoding => s.encoding
  | .enhanced => s.enhanced
  | .excludeAccessors => s.excludeAccessors
  | .excludePatterns => .list s.excludePatterns
  | .followSymlinks => s.followSymlinks
  | .allowHiddenFiles => s.allowHiddenFiles
  | .verbosity => .string s.verbosity.word

/-- Every key with its value, in order. -/
def toTable (s : Settings) : Assoc String Value := Setting.all.map fun k => (k.key, s.get k)

/-- The settings in one line. -/
def render (s : Settings) : String :=
  "AnalysisConfig(" ++ ", ".intercalate (s.toTable.map fun (k, v) => k ++ "=" ++ v.quoted) ++ ")"

/-! ## From a table -/

/-- What a call takes to be the settings under construction, so that no setting can have this key. -/
def ownName : String := "self"

/-- Why a key cannot be set, if it cannot. -/
def keyDefect? (k : String) : Option Defect :=
  if k = ownName then some (.takenSetting k)
  else if Setting.isKey k then none
  else some (.unknownSetting k)

/-- The value of a setting in a table. -/
def valueIn (t : Assoc String Value) (s : Setting) : Value := (Assoc.get? s.key t).getD s.fallback

/-- A setting whose value breaks a rule. -/
def invalid (s : Setting) (v : Value) (reason : String) : Failure :=
  .invalidSetting s.key v.render reason

/-- The settings with these values, if they keep the four rules. -/
def ofValues (value : Setting → Value) : Except Failure Settings :=
  if !(value .language).isTruthy then
    .error (invalid .language (value .language) "must not be empty")
  else if !(value .encoding).isTruthy then
    .error (invalid .encoding (value .encoding) "must not be empty")
  else
    match Verbosity.ofValue? (value .verbosity) with
    | none =>
      .error (invalid .verbosity (value .verbosity)
        ("must be one of " ++ ", ".intercalate (Verbosity.all.map Verbosity.word)))
    | some verbosity =>
      match value .excludePatterns with
      | .list patterns =>
        .ok {
          language := value .language
          encoding := value .encoding
          enhanced := value .enhanced
          excludeAccessors := value .excludeAccessors
          excludePatterns := patterns
          followSymlinks := value .followSymlinks
          allowHiddenFiles := value .allowHiddenFiles
          verbosity := verbosity }
      | v => .error (invalid .excludePatterns v "must be a list of glob patterns")

/-- The settings that a table gives.  The first key that cannot be set outweighs every wrong value. -/
def ofTable (t : Assoc String Value) : Except Stop Settings :=
  match t.findSome? fun kv => keyDefect? kv.1 with
  | some d => .error (.defect d)
  | none =>
    match ofValues (valueIn t) with
    | .ok s => .ok s
    | .error f => .error (.failure f)

end Settings

end SourceCensus
