/-!
# Lines

A text is read line by line.  A line ends at a line feed, at a carriage return, or at both together, and
nowhere else; the last line may have no end.

* `Text.lines`: the lines without their ends.
-/

set_option autoImplicit false

namespace SourceCensus.Text

/-- The line that starts with `c` and the lines behind it. -/
def extendFirst (c : Char) : List (List Char) → List (List Char)
  | [] => [[c]]
  | line :: rest => (c :: line) :: rest

/-- The lines of a text. -/
def lines : List Char → List (List Char)
  | [] => []
  | '\r' :: '\n' :: s => [] :: lines s
  | c :: s => if c = '\n' || c = '\r' then [] :: lines s else extendFirst c (lines s)

end SourceCensus.Text
