import SourceCensus.Settings

/-!
# The log

A run leaves records behind: what it skipped, what it could not read, how large the graph is.  The records
of a run that fails survive it.  So a run is a pair of its records and its outcome, and what follows a
failed step adds neither.

* `LogLevel`, `LogRecord`: a record, and the least level that a verbosity lets through;
* `Run`: records and outcome, as a monad;
* `outcome_bind`, `records_bind`: the outcome of a sequence is that of the bare steps, whatever is logged.
-/

set_option autoImplicit false

namespace SourceCensus

/-! ## Records -/

/-- How serious a record is. -/
inductive LogLevel where
  | debug
  | info
  | warning
  | error
  deriving Repr, DecidableEq

namespace LogLevel

def name : LogLevel → String
  | debug => "DEBUG"
  | info => "INFO"
  | warning => "WARNING"
  | error => "ERROR"

def rank : LogLevel → Nat
  | debug => 0
  | info => 1
  | warning => 2
  | error => 3

/-- The least level that is let through; being quiet outweighs being verbose. -/
def threshold (verbose quiet : Bool) : LogLevel :=
  if quiet then error else if verbose then debug else warning

end LogLevel

/-- The least level that a verbosity lets through. -/
def Verbosity.threshold (v : Verbosity) : LogLevel :=
  LogLevel.threshold (v = .verbose) (v = .quiet)

/-- A record: its level, the part of the program that logged it, and its text. -/
structure LogRecord where
  level : LogLevel
  source : String
  text : String
  deriving Repr, DecidableEq

namespace LogRecord

/-- The name that all parts of the program log under. -/
def family : String := "codetally"

/-- The name that a part of the program logs under: a name of the family stays as it is. -/
def sourceName : Option String → String
  | none => family
  | some name => if family.toList.isPrefixOf name.toList then name else family ++ "." ++ name

def passes (threshold : LogLevel) (r : LogRecord) : Bool := threshold.rank ≤ r.level.rank

end LogRecord

/-! ## Runs -/

/-- What a run has logged, and what it came to. -/
structure Run (α : Type) where
  records : List LogRecord
  outcome : Except Stop α

namespace Run

variable {α β : Type}

/-- A run that ends at once. -/
def ofExcept (outcome : Except Stop α) : Run α := ⟨[], outcome⟩

/-- A run that logs one record. -/
def log (level : LogLevel) (source text : String) : Run Unit := ⟨[⟨level, source, text⟩], .ok ()⟩

def logAll (records : List LogRecord) : Run Unit := ⟨records, .ok ()⟩

/-- A run that stops at a defect. -/
def stop (d : Defect) : Run α := ofExcept (.error (.defect d))

/-- A run that goes on if nothing is wrong. -/
def ofDefect? : Except Defect α → Run α
  | .ok a => ofExcept (.ok a)
  | .error d => stop d

instance : Monad Run where
  pure a := ofExcept (.ok a)
  bind r f :=
    match r.outcome with
    | .ok a => ⟨r.records ++ (f a).records, (f a).outcome⟩
    | .error e => ⟨r.records, .error e⟩

@[simp] theorem outcome_pure (a : α) : (pure a : Run α).outcome = .ok a := rfl

@[simp] theorem outcome_bind (r : Run α) (f : α → Run β) :
    (r >>= f).outcome = r.outcome >>= fun a => (f a).outcome := by
  obtain ⟨records, outcome⟩ := r
  cases outcome <;> rfl

theorem records_bind (r : Run α) (f : α → Run β) :
    (r >>= f).records = r.records ++ (match r.outcome with
      | .ok a => (f a).records
      | .error _ => []) := by
  obtain ⟨records, outcome⟩ := r
  cases outcome with
  | ok a => rfl
  | error e => simp [bind]

theorem map_id' (r : Run α) : id <$> r = r := by
  obtain ⟨records, outcome⟩ := r
  cases outcome <;> simp [Functor.map, ofExcept]

theorem pure_bind' (a : α) (f : α → Run β) : pure a >>= f = f a := by
  simp [bind, pure, ofExcept]

theorem bind_assoc' {γ : Type} (r : Run α) (f : α → Run β) (g : β → Run γ) :
    r >>= f >>= g = r >>= fun a => f a >>= g := by
  obtain ⟨records, outcome⟩ := r
  cases outcome with
  | error e => rfl
  | ok a =>
    simp only [bind]
    cases (f a).outcome <;> simp

instance : LawfulMonad Run := LawfulMonad.mk' Run map_id' pure_bind' bind_assoc'

@[simp] theorem outcome_log (level : LogLevel) (source text : String) :
    (log level source text).outcome = .ok () := rfl

end Run

end SourceCensus
