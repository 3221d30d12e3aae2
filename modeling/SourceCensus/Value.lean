import SourceCensus.Assoc
import SourceCensus.Number.Binary64
import SourceCensus.Text.Quoted

/-!
# Values

A setting can come from a file, from the environment or from a caller, and anything can stand where a
particular type is wanted.  So settings are dynamic values until they are used, and messages show a value
as it is.

* `Value`: the values, with dates and times as configuration files know them;
* `Value.isTruthy`: whether a value counts as a yes where one is wanted;
* `Value.render`, `Value.quoted`: a value in a message; a text stands there as it is or quoted.
-/

set_option autoImplicit false

namespace SourceCensus

/-! ## Dates and times -/

/-- A day. -/
structure Date where
  year : Nat
  month : Nat
  day : Nat
  deriving Repr, DecidableEq

/-- A time of day. -/
structure ClockTime where
  hour : Nat
  minute : Nat
  second : Nat
  microsecond : Nat
  deriving Repr, DecidableEq

/-- How far a clock is ahead of universal time, in minutes. -/
abbrev UtcOffset := Int

/-- Digits of a number, with zeros in front up to the width. -/
def zeroPadded (width n : Nat) : String :=
  let digits := Nat.toDigits 10 n
  String.ofList (List.replicate (width - digits.length) '0' ++ digits)

namespace Date

/-- Whether the year has a 29th of February. -/
def isLeapYear (year : Nat) : Bool := year % 4 == 0 && (year % 100 != 0 || year % 400 == 0)

/-- The number of days of a month. -/
def daysIn (year month : Nat) : Nat :=
  if month = 2 then (if isLeapYear year then 29 else 28)
  else if [4, 6, 9, 11].contains month then 30
  else 31

/-- Whether there is such a day. -/
def isValid (d : Date) : Bool :=
  1 ≤ d.year && 1 ≤ d.month && d.month ≤ 12 && 1 ≤ d.day && d.day ≤ daysIn d.year d.month

/-- Year, month and day with hyphens. -/
def render (d : Date) : String :=
  zeroPadded 4 d.year ++ "-" ++ zeroPadded 2 d.month ++ "-" ++ zeroPadded 2 d.day

/-- The parts of the day in the notation of a call. -/
def arguments (d : Date) : List Nat := [d.year, d.month, d.day]

end Date

namespace ClockTime

/-- Hours, minutes and seconds with colons, and a fraction if there is one. -/
def render (t : ClockTime) : String :=
  zeroPadded 2 t.hour ++ ":" ++ zeroPadded 2 t.minute ++ ":" ++ zeroPadded 2 t.second ++
    (if t.microsecond = 0 then "" else "." ++ zeroPadded 6 t.microsecond)

/-- The parts of the time in the notation of a call, without the last ones if they are zero. -/
def arguments (t : ClockTime) : List Nat :=
  [t.hour, t.minute] ++
    (if t.microsecond ≠ 0 then [t.second, t.microsecond]
    else if t.second ≠ 0 then [t.second] else [])

end ClockTime

namespace UtcOffset

/-- Sign, hours and minutes. -/
def render (o : UtcOffset) : String :=
  (if o < 0 then "-" else "+") ++ zeroPadded 2 (o.natAbs / 60) ++ ":" ++ zeroPadded 2 (o.natAbs % 60)

/-- The offset in the notation of a call: whole days downwards, and the seconds on top. -/
def quoted (o : UtcOffset) : String :=
  if o = 0 then "datetime.timezone.utc"
  else
    let seconds := if o < 0 then 86400 + o * 60 else o * 60
    "datetime.timezone(datetime.timedelta(" ++ (if o < 0 then "days=-1, " else "") ++
      s!"seconds={seconds}))"

end UtcOffset

/-! ## Values -/

/-- A dynamic value. -/
inductive Value where
  | null
  | bool (b : Bool)
  | int (n : Int)
  | float (x : Binary64)
  | string (s : String)
  | list (items : List Value)
  | table (members : List (String × Value))
  | date (d : Date)
  | time (t : ClockTime)
  | datetime (d : Date) (t : ClockTime) (offset : Option UtcOffset)
  deriving Repr, Inhabited

namespace Value

/-- Whether the value counts as a yes. -/
def isTruthy : Value → Bool
  | null => false
  | bool b => b
  | int n => n != 0
  | float x => !x.isZero
  | string s => !s.isEmpty
  | list items => !items.isEmpty
  | table members => !members.isEmpty
  | date _ | time _ | datetime .. => true

/-- The name of the value's type. -/
def typeName : Value → String
  | null => "NoneType"
  | bool _ => "bool"
  | int _ => "int"
  | float _ => "float"
  | string _ => "str"
  | list _ => "list"
  | table _ => "dict"
  | date _ => "datetime.date"
  | time _ => "datetime.time"
  | datetime .. => "datetime.datetime"

/-- Numbers with commas between them. -/
def commaSeparated (l : List Nat) : String := ", ".intercalate (l.map toString)

mutual

/-- The value in a message, texts quoted. -/
def quoted : Value → String
  | null => "None"
  | bool b => if b then "True" else "False"
  | int n => toString n
  | float x => x.render
  | string s => Text.quote s
  | list items => "[" ++ quotedItems items ++ "]"
  | table members => "\x7b" ++ quotedMembers members ++ "\x7d"
  | date d => "datetime.date(" ++ commaSeparated d.arguments ++ ")"
  | time t => "datetime.time(" ++ commaSeparated t.arguments ++ ")"
  | datetime d t offset =>
    "datetime.datetime(" ++ commaSeparated (d.arguments ++ t.arguments) ++
      (match offset with
      | some o => ", tzinfo=" ++ UtcOffset.quoted o
      | none => "") ++ ")"

/-- The elements of a list with commas between them. -/
def quotedItems : List Value → String
  | [] => ""
  | [v] => quoted v
  | v :: rest => quoted v ++ ", " ++ quotedItems rest

/-- The members of a table with commas between them. -/
def quotedMembers : List (String × Value) → String
  | [] => ""
  | [(k, v)] => Text.quote k ++ ": " ++ quoted v
  | (k, v) :: rest => Text.quote k ++ ": " ++ quoted v ++ ", " ++ quotedMembers rest

end

/-- A date, a time and an offset, with `separator` between the first two. -/
def renderMoment (separator : String) (d : Date) (t : ClockTime) (offset : Option UtcOffset) :
    String :=
  d.render ++ separator ++ t.render ++ (offset.map UtcOffset.render).getD ""

/-- The value in a message, a text as it is. -/
def render : Value → String
  | string s => s
  | date d => d.render
  | time t => t.render
  | datetime d t offset => renderMoment " " d t offset
  | v => quoted v

end Value

end SourceCensus
