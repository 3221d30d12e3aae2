import SourceCensus.Text.Blank
import SourceCensus.Text.Quoted

/-!
# Numerals

A *numeral* is a whole number in decimal notation as a person may type it: blanks around it, a sign,
digits of any script, and single underscores between digits.  The information separators do not
count as blanks here.

A numeral of more than 4300 digits is refused, because reading it takes time that grows with the
square of its length; the refusal says how many digits there were.  What follows the digits is looked at
only after that, except an underscore.

* `Text.digitValue?`: the value of a decimal digit of Unicode 14;
* `Numeral.read`: the number, or why there is none;
* `Numeral.Fault.message`: the wording.
-/

set_option autoImplicit false

namespace SourceCensus.Text

/-- The zeros of the decimal digits of Unicode 14: each is followed by its nine other digits. -/
def digitZeros : List Nat := [
  0x30, 0x660, 0x6f0, 0x7c0, 0x966, 0x9e6, 0xa66, 0xae6, 0xb66, 0xbe6, 0xc66, 0xce6, 0xd66, 0xde6,
  0xe50, 0xed0, 0xf20, 0x1040, 0x1090, 0x17e0, 0x1810, 0x1946, 0x19d0, 0x1a80, 0x1a90, 0x1b50,
  0x1bb0, 0x1c40, 0x1c50, 0xa620, 0xa8d0, 0xa900, 0xa9d0, 0xa9f0, 0xaa50, 0xabf0, 0xff10, 0x104a0,
  0x10d30, 0x11066, 0x110f0, 0x11136, 0x111d0, 0x112f0, 0x11450, 0x114d0, 0x11650, 0x116c0,
  0x11730, 0x118e0, 0x11950, 0x11c50, 0x11d50, 0x11da0, 0x16a60, 0x16ac0, 0x16b50, 0x1d7ce,
  0x1d7d8, 0x1d7e2, 0x1d7ec, 0x1d7f6, 0x1e140, 0x1e2f0, 0x1e950, 0x1fbf0]

/-- The value of `c` as a decimal digit. -/
def digitValue? (c : Char) : Option Nat :=
  (digitZeros.find? fun start => start ≤ c.toNat && c.toNat < start + 10).map (c.toNat - ·)

end SourceCensus.Text

namespace SourceCensus.Numeral

open Text

/-- Why a text is no numeral that can be read. -/
inductive Fault where
  /-- The text is not of the form of a numeral. -/
  | malformed
  /-- The numeral has this many digits, which is too many. -/
  | tooLong (digits : Nat)
  deriving Repr, DecidableEq

/-- The most digits that a numeral may have. -/
def maxDigits : Nat := 4300

/-- A blank that may stand around a numeral. -/
def isMargin (c : Char) : Bool := isBlank c && !(0x1c ≤ c.toNat && c.toNat ≤ 0x1f)

/-- The digits at the start of `s`, with single underscores between them dropped, and the rest. -/
def takeDigits : List Char → List Nat × List Char
  | [] => ([], [])
  | c :: rest =>
    match digitValue? c with
    | none => ([], c :: rest)
    | some d =>
      match rest with
      | [] => ([d], [])
      | '_' :: next :: more =>
        if (digitValue? next).isSome then
          let (ds, left) := takeDigits (next :: more)
          (d :: ds, left)
        else ([d], '_' :: next :: more)
      | c' :: more =>
        let (ds, left) := takeDigits (c' :: more)
        (d :: ds, left)
  termination_by s => s.length

/-- The number that a list of decimal digits writes. -/
def ofDigits (ds : List Nat) : Nat := ds.foldl (fun n d => n * 10 + d) 0

/-- The number that the text writes. -/
def read (s : String) : Except Fault Int :=
  let body := s.toList.dropWhile isMargin
  let (negative, body) :=
    match body with
    | '-' :: rest => (true, rest)
    | '+' :: rest => (false, rest)
    | rest => (false, rest)
  let (ds, left) := takeDigits body
  if ds.isEmpty || left.head? = some '_' then .error .malformed
  else if ds.length > maxDigits then .error (.tooLong ds.length)
  else if !left.all isMargin then .error .malformed
  else .ok (if negative then -Int.ofNat (ofDigits ds) else Int.ofNat (ofDigits ds))

/-- The start of a quoted text, which is all that a message shows of it. -/
def excerpt (text : String) : String := String.ofList ((quote text).toList.take 200)

/-- What is said about a text that is no numeral. -/
def Fault.message (text : String) : Fault → String
  | .malformed => s!"invalid literal for int() with base 10: {excerpt text}"
  | .tooLong n =>
    s!"Exceeds the limit ({maxDigits} digits) for integer string conversion: value has {n} digits" ++
      "; use sys.set_int_max_str_digits() to increase the limit"

end SourceCensus.Numeral
