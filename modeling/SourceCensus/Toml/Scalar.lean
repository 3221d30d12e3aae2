import SourceCensus.Value

/-!
# Scalars of a configuration file

Numbers, dates and times as TOML writes them.  Each reader takes the text from its position on and gives the
value and the rest; it takes as much as belongs to the value and leaves what follows to its caller.

* `Toml.readMoment?`: a date, a time, or both;
* `Toml.readNumber?`: an integer in one of four bases, or a number with a fraction or an exponent;
* `Toml.readSpecial?`: infinity and the number that is none.
-/

set_option autoImplicit false

namespace SourceCensus.Toml

/-- A reader gives a value and the rest of the text. -/
abbrev Reader (α : Type) := List Char → Option (α × List Char)

/-- The rest behind `word`, when the text starts with it. -/
def dropWord? (word : List Char) (s : List Char) : Option (List Char) :=
  if word.isPrefixOf s then some (s.drop word.length) else none

/-- The value of a digit in a base up to sixteen. -/
def digitIn? (base : Nat) (c : Char) : Option Nat :=
  let n := c.toNat
  let value :=
    if 0x30 ≤ n && n ≤ 0x39 then some (n - 0x30)
    else if 0x61 ≤ n && n ≤ 0x66 then some (n - 0x57)
    else if 0x41 ≤ n && n ≤ 0x46 then some (n - 0x37)
    else none
  value.filter (· < base)

/-! ## Dates and times -/

/-- Exactly `count` decimal digits. -/
def readDigits? : Nat → Nat → Reader Nat
  | 0, acc, s => some (acc, s)
  | _ + 1, _, [] => none
  | count + 1, acc, c :: s =>
    match digitIn? 10 c with
    | some d => readDigits? count (acc * 10 + d) s
    | none => none

/-- Two digits whose value lies within bounds. -/
def readPair? (low high : Nat) (s : List Char) : Option (Nat × List Char) :=
  match readDigits? 2 0 s with
  | some (n, rest) => if low ≤ n && n ≤ high then some (n, rest) else none
  | none => none

/-- The rest behind one character. -/
def dropChar? (c : Char) : List Char → Option (List Char)
  | d :: s => if d == c then some s else none
  | [] => none

/-- A fraction of a second in microseconds; digits beyond the sixth are dropped.  Without digits behind the
point there is no fraction. -/
def readFraction (s : List Char) : Nat × List Char :=
  match s with
  | '.' :: body =>
    let digits := body.takeWhile fun c => (digitIn? 10 c).isSome
    if digits.isEmpty then (0, s)
    else
      let six := (digits ++ List.replicate 6 '0').take 6
      (six.foldl (fun n c => n * 10 + (c.toNat - 0x30)) 0, body.drop digits.length)
  | _ => (0, s)

/-- A time of day, with seconds. -/
def readClock? (s : List Char) : Option (ClockTime × List Char) := do
  let (hour, s) ← readPair? 0 23 s
  let s ← dropChar? ':' s
  let (minute, s) ← readPair? 0 59 s
  let s ← dropChar? ':' s
  let (second, s) ← readPair? 0 59 s
  let (microsecond, s) := readFraction s
  return (⟨hour, minute, second, microsecond⟩, s)

/-- Hours and minutes of an offset. -/
def readOffsetParts? (s : List Char) : Option (Nat × List Char) := do
  let (hour, s) ← readPair? 0 23 s
  let s ← dropChar? ':' s
  let (minute, s) ← readPair? 0 59 s
  return (hour * 60 + minute, s)

/-- An offset from universal time, which may be absent. -/
def readOffset (s : List Char) : Option UtcOffset × List Char :=
  match s with
  | 'Z' :: rest | 'z' :: rest => (some 0, rest)
  | '+' :: rest =>
    match readOffsetParts? rest with
    | some (n, rest) => (some (Int.ofNat n), rest)
    | none => (none, s)
  | '-' :: rest =>
    match readOffsetParts? rest with
    | some (n, rest) => (some (-Int.ofNat n), rest)
    | none => (none, s)
  | _ => (none, s)

/-- The form of a date, whether or not there is such a day. -/
def readDate? (s : List Char) : Option (Date × List Char) := do
  let (year, s) ← readDigits? 4 0 s
  let s ← dropChar? '-' s
  let (month, s) ← readPair? 1 12 s
  let s ← dropChar? '-' s
  let (day, s) ← readPair? 1 31 s
  return (⟨year, month, day⟩, s)

/-- A time behind a date, with what separates them. -/
def readClockBehind? : List Char → Option (ClockTime × List Char)
  | c :: s => if c == 'T' || c == 't' || c == ' ' then readClock? s else none
  | [] => none

/-- Whether the text starts like a date, a time, or both: then the value and the rest, or `none` inside when
there is no such day. -/
def readMoment? (s : List Char) : Option (Option (Value × List Char)) :=
  match readDate? s with
  | some (d, rest) =>
    if !d.isValid then some none
    else
      match readClockBehind? rest with
      | some (t, rest) =>
        let (offset, rest) := readOffset rest
        some (some (.datetime d t offset, rest))
      | none => some (some (.date d, rest))
  | none =>
    match readClock? s with
    | some (t, rest) => some (some (.time t, rest))
    | none => none

/-! ## Numbers -/

/-- Digits of a base with single underscores between them, and the rest. -/
def spanDigits (base : Nat) : List Char → List Nat × List Char
  | [] => ([], [])
  | c :: s =>
    match digitIn? base c with
    | none => ([], c :: s)
    | some d =>
      match s with
      | [] => ([d], [])
      | '_' :: next :: more =>
        if (digitIn? base next).isSome then
          let (ds, rest) := spanDigits base (next :: more)
          (d :: ds, rest)
        else ([d], '_' :: next :: more)
      | c' :: more =>
        let (ds, rest) := spanDigits base (c' :: more)
        (d :: ds, rest)
  termination_by s => s.length

/-- The number that digits of a base write. -/
def ofDigits (base : Nat) (ds : List Nat) : Nat := ds.foldl (fun n d => n * base + d) 0

/-- An integer behind the prefix of its base. -/
def readBased? (base : Nat) (s : List Char) : Option (Value × List Char) :=
  match spanDigits base s with
  | ([], _) => none
  | (ds, rest) => some (.int (ofDigits base ds), rest)

/-- An integer that names its base. -/
def readPrefixed? : List Char → Option (Value × List Char)
  | '0' :: 'x' :: s => readBased? 16 s
  | '0' :: 'o' :: s => readBased? 8 s
  | '0' :: 'b' :: s => readBased? 2 s
  | _ => none

/-- A sign, which may be absent: whether it is a minus, and the rest. -/
def readSign : List Char → Bool × List Char
  | '-' :: s => (true, s)
  | '+' :: s => (false, s)
  | s => (false, s)

/-- The whole part of a decimal number: one zero, or digits that start with another one. -/
def readWhole? (s : List Char) : Option (List Nat × List Char) :=
  match s with
  | '0' :: rest => some ([0], rest)
  | _ =>
    match spanDigits 10 s with
    | ([], _) => none
    | r => some r

/-- The digits of a fraction, which may be absent. -/
def readFractionDigits (s : List Char) : List Nat × List Char :=
  match s with
  | '.' :: rest =>
    match spanDigits 10 rest with
    | ([], _) => ([], s)
    | r => r
  | _ => ([], s)

/-- An exponent, which may be absent. -/
def readPower (s : List Char) : Option Int × List Char :=
  match s with
  | c :: rest =>
    if c == 'e' || c == 'E' then
      let (negative, body) := readSign rest
      match spanDigits 10 body with
      | ([], _) => (none, s)
      | (ds, rest) =>
        let n : Int := ofDigits 10 ds
        (some (if negative then -n else n), rest)
    else (none, s)
  | [] => (none, s)

/-- The most digits that a decimal integer may have. -/
def maxIntegerDigits : Nat := 4300

/-- A decimal number. -/
def readDecimal? (s : List Char) : Option (Option (Value × List Char)) :=
  let (negative, body) := readSign s
  match readWhole? body with
  | none => none
  | some (whole, rest) =>
    let (fraction, rest) := readFractionDigits rest
    let (power, rest) := readPower rest
    if fraction.isEmpty && power.isNone then
      if maxIntegerDigits < whole.length then some none
      else
        let n : Int := ofDigits 10 whole
        some (some (.int (if negative then -n else n), rest))
    else
      let ds := whole ++ fraction
      let scale := power.getD 0 - fraction.length
      some (some (.float (Binary64.ofDecimal negative (ofDigits 10 ds) ds.length scale), rest))

/-- Whether the text starts like a number: then the value and the rest, or `none` inside when it has too many
digits. -/
def readNumber? (s : List Char) : Option (Option (Value × List Char)) :=
  match readPrefixed? s with
  | some r => some (some r)
  | none => readDecimal? s

/-- Infinity, or the number that is none, with or without a sign. -/
def readSpecial? (s : List Char) : Option (Value × List Char) :=
  let (negative, body) := readSign s
  match dropWord? "inf".toList body with
  | some rest => some (.float (.infinite negative), rest)
  | none =>
    match dropWord? "nan".toList body with
    | some rest => some (.float .nan, rest)
    | none => none

end SourceCensus.Toml
