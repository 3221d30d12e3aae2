import SourceCensus.Text.Printable

/-!
# Quoted text

Messages show a name or a path between quotes, so that blanks and odd characters can be seen.  The
quote is `'`, unless the text holds a `'` and no `"`: then it is `"`.  A backslash and the quote in use
are written behind a backslash, tab, newline and carriage return by their letters, and every other
unprintable character by its number, as short as it fits: two, four or eight hexadecimal digits.

* `Text.hexDigits n width`: the last `width` hexadecimal digits of `n`;
* `Text.quote`: the quoted form of a text.
-/

set_option autoImplicit false

namespace SourceCensus.Text

/-- One hexadecimal digit, in lower case. -/
def hexDigit (n : Nat) : Char :=
  let d := n % 16
  Char.ofNat (if d < 10 then 0x30 + d else 0x57 + d)

/-- The last `width` hexadecimal digits of `n`, the most significant first. -/
def hexDigits (n : Nat) : Nat → List Char
  | 0 => []
  | width + 1 => hexDigits (n / 16) width ++ [hexDigit n]

/-- A code point by its number, in the shortest of the three widths that holds it. -/
def numbered (n : Nat) : List Char :=
  if n < 0x100 then '\\' :: 'x' :: hexDigits n 2
  else if n < 0x10000 then '\\' :: 'u' :: hexDigits n 4
  else '\\' :: 'U' :: hexDigits n 8

/-- One character of a quoted text whose quote is `mark`. -/
def quoteChar (mark c : Char) : List Char :=
  if c == mark || c == '\\' then ['\\', c]
  else if c == '\n' then ['\\', 'n']
  else if c == '\r' then ['\\', 'r']
  else if c == '\t' then ['\\', 't']
  else if isPrintable c then [c]
  else numbered c.toNat

/-- The quote that `s` is written between. -/
def quoteMark (s : List Char) : Char :=
  if s.contains '\'' && !s.contains '"' then '"' else '\''

/-- The quoted form of a text, quotes included. -/
def quote (s : String) : String :=
  let mark := quoteMark s.toList
  String.ofList (mark :: s.toList.flatMap (quoteChar mark) ++ [mark])

end SourceCensus.Text
