/-!
# Blank characters and trimming

A character is *blank* when it has the Unicode property `White_Space` or is one of the four
information separators U+001C to U+001F.  Blanks are what a line is trimmed of before it is
classified, and what the accessor and import shapes accept between two words.

The set is closed and small, so it is written out as ranges.  Zero-width characters (U+200B, U+2060,
U+FEFF) and U+180E look empty and are *not* blank.

* `Text.isBlank`: the class;
* `Text.trimStart`, `Text.trimEnd`, `Text.trim`: a line without the blanks at one end, or both.
-/

set_option autoImplicit false

namespace SourceCensus.Text

/-- Whether `c` is white space or an information separator. -/
def isBlank (c : Char) : Bool :=
  let n := c.toNat
  (0x09 ≤ n && n ≤ 0x0d) || (0x1c ≤ n && n ≤ 0x20) || n == 0x85 || n == 0xa0 || n == 0x1680 ||
    (0x2000 ≤ n && n ≤ 0x200a) || n == 0x2028 || n == 0x2029 || n == 0x202f || n == 0x205f ||
    n == 0x3000

/-- The line without its leading blanks. -/
def trimStart (s : List Char) : List Char := s.dropWhile isBlank

/-- The line without its trailing blanks. -/
def trimEnd (s : List Char) : List Char := (s.reverse.dropWhile isBlank).reverse

/-- The line without the blanks at either end. -/
def trim (s : List Char) : List Char := trimEnd (trimStart s)

@[simp] theorem trimStart_nil : trimStart [] = [] := rfl

@[simp] theorem trimEnd_nil : trimEnd [] = [] := rfl

/-- A line that starts with something else keeps its start. -/
theorem trimStart_cons_of_not_isBlank {c : Char} {s : List Char} (h : isBlank c = false) :
    trimStart (c :: s) = c :: s := by
  simp [trimStart, h]

end SourceCensus.Text
