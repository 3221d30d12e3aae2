import SourceCensus.Text.Blank

/-!
# Markup on the terminal

What is printed on a terminal may carry tags in square brackets, which switch styles on and off and are not
shown.  A message that holds brackets of its own is subject to the same rules: what looks like a tag is
taken for one, a backslash in front of it makes it text, and a closing tag that closes nothing is an
error.  Tabs are widened to columns of eight and other control characters are not shown.

* `Markup.shown?`: the text without its tags;
* `Markup.plain?`: what is shown of it on a terminal, without styles.
-/

set_option autoImplicit false

namespace SourceCensus.Markup

/-- Whether a tag can start with the character. -/
def isTagStart (c : Char) : Bool := c.isLower || c == '#' || c == '/' || c == '@'

/-- What stands in the brackets of a tag, and the rest behind it; the opening bracket is read already. -/
def readTag? : List Char → Option (List Char × List Char)
  | [] => none
  | c :: s =>
    if isTagStart c then
      let body := s.takeWhile fun c => c != '[' && c != ']'
      match s.drop body.length with
      | ']' :: rest => some (c :: body, rest)
      | _ => none
    else none

/-- The name of a style in a form that can be compared. -/
def styleName (name : List Char) : List Char := (Text.trim name).map Char.toLower

/-- The styles switched on after a tag, if it may stand where it does. -/
def applyTag? (open' : List (List Char)) (tag : List Char) : Option (List (List Char)) :=
  match tag.takeWhile (· != '=') with
  | '/' :: name =>
    match styleName name with
    | [] => if open'.isEmpty then none else some open'.tail
    | style => if open'.contains style then some (open'.erase style) else none
  | name => some (styleName name :: open')

/-- Backslashes. -/
def slashes (n : Nat) : List Char := List.replicate n '\\'

/-- What is shown of the text, with some styles switched on, in at most `n` pieces. -/
def showFrom? : Nat → List (List Char) → List Char → Option (List Char)
  | 0, _, _ => some []
  | _ + 1, _, [] => some []
  | n + 1, open', c :: s =>
    let count := ((c :: s).takeWhile (· == '\\')).length
    match (c :: s).drop count with
    | '[' :: rest =>
      match readTag? rest with
      | some (tag, rest') =>
        if count % 2 = 1 then
          (showFrom? n open' rest').map (slashes (count / 2) ++ '[' :: tag ++ [']'] ++ ·)
        else
          match applyTag? open' tag with
          | some open' => (showFrom? n open' rest').map (slashes (count / 2) ++ ·)
          | none => none
      | none => (showFrom? n open' rest).map (slashes (count - 1) ++ '[' :: ·)
    | _ => (showFrom? n open' s).map (c :: ·)

/-- Whether the character is shown neither as itself nor as layout. -/
def isInvisible (c : Char) : Bool := ['\x07', '\x08', '\x0b', '\x0c', '\r'].contains c

/-- The text with tabs widened, from a column on. -/
def widenTabs : Nat → List Char → List Char
  | _, [] => []
  | column, c :: s =>
    if c = '\n' then c :: widenTabs 0 s
    else if c = '\t' then
      let width := 8 - column % 8
      List.replicate width ' ' ++ widenTabs (column + width) s
    else c :: widenTabs (column + 1) s

/-- The text without its tags. -/
def shown? (s : String) : Option String :=
  (showFrom? (s.toList.length + 1) [] s.toList).map String.ofList

/-- What is shown of the text. -/
def plain? (s : String) : Option String :=
  (shown? s).map fun shown =>
    String.ofList (widenTabs 0 (shown.toList.filter (!isInvisible ·)))

end SourceCensus.Markup
