import SourceCensus.Pattern

/-!
# Wildcards

One component of a glob is a text with wildcards: `*` for any text, `?` for any character, and a bracketed
set of characters, negated by a leading `!`.  There is no way to escape a wildcard other than a set of one.

A set is read piece by piece.  Its hyphens divide it into *chunks*, and each one joins the last character of
the chunk in front of it and the first of the chunk behind it to a range.  A hyphen divides only when at
least two characters stand between it and the last one that did; so the first and the last character of a set
are themselves.  A range that runs backwards holds nothing: it goes, with both its ends, and the chunks on
its sides become one.  Whether the set is negated is seen afterwards, from the first character left.

* `Wildcard.ofChars`: the wildcards of a component;
* `Wildcard.fits`: whether they match a whole text.
-/

set_option autoImplicit false

namespace SourceCensus

/-- A wildcard, or a character that stands for itself. -/
inductive Wildcard where
  /-- Any text. -/
  | anyText
  /-- Any character. -/
  | anyChar
  /-- This character. -/
  | char (c : Char)
  /-- A character of one of the pieces, or of none of them. -/
  | set (negated : Bool) (pieces : List Piece)
  deriving Repr, DecidableEq

namespace Wildcard

/-! ## Sets -/

/-- The text in front of the first hyphen that has at least `lead` characters before it, and the text
behind. -/
def splitHyphen? : Nat → List Char → Option (List Char × List Char)
  | _, [] => none
  | 0, c :: s =>
    if c == '-' then some ([], s)
    else (splitHyphen? 0 s).map fun (front, back) => (c :: front, back)
  | lead + 1, c :: s => (splitHyphen? lead s).map fun (front, back) => (c :: front, back)

/-- The chunks of a set, in at most `n` divisions.  A hyphen with nothing behind it belongs to the chunk in
front. -/
def chunksFrom : Nat → Nat → List Char → List (List Char)
  | 0, _, s => [s]
  | n + 1, lead, s =>
    match splitHyphen? lead s with
    | none => [s]
    | some (front, []) => [front ++ ['-']]
    | some (front, back) => front :: chunksFrom n 2 back

/-- The chunks of a set. -/
def chunks (s : List Char) : List (List Char) :=
  chunksFrom s.length (if s.head? == some '!' then 2 else 1) s

/-- Whether the range between two chunks runs backwards. -/
def isBackwards (front back : List Char) : Bool :=
  match front.getLast?, back.head? with
  | some a, some b => b.toNat < a.toNat
  | _, _ => false

/-- The chunks without the ranges that run backwards. -/
def dropBackwards : List (List Char) → List (List Char)
  | [] => []
  | front :: rest =>
    match dropBackwards rest with
    | [] => [front]
    | back :: more =>
      if isBackwards front back then (front.dropLast ++ back.tail) :: more
      else front :: back :: more

/-- The pieces of the characters that stand for themselves. -/
def singles (s : List Char) : List Piece := s.map .char

/-- The pieces of chunks with a hyphen between each two.  A hyphen with nothing in front of it stands for
itself. -/
def piecesOf : List (List Char) → List Piece
  | [] => []
  | [chunk] => singles chunk
  | front :: back :: more =>
    match front.getLast?, back with
    | some a, b :: back' => singles front.dropLast ++ .range a b :: piecesOf (back' :: more)
    | _, _ => singles front ++ .char '-' :: piecesOf (back :: more)
  termination_by chunks => chunks.length

/-- The set that stands between the brackets. -/
def setOf (s : List Char) : Wildcard :=
  match (if s.contains '-' then dropBackwards (chunks s) else [s]) with
  | ('!' :: first) :: rest => .set true (piecesOf (first :: rest))
  | chunks => .set false (piecesOf chunks)

/-! ## Components -/

/-- The text between an opening bracket and its closing one, and the text behind.  A closing bracket right
at the start, or right behind the `!`, belongs to the set. -/
def splitSet? (s : List Char) : Option (List Char × List Char) :=
  let lead :=
    match s with
    | '!' :: ']' :: _ => 2
    | '!' :: _ => 1
    | ']' :: _ => 1
    | _ => 0
  let body := s.drop lead
  let inside := body.takeWhile (· != ']')
  match body.drop inside.length with
  | [] => none
  | _ :: rest => some (s.take lead ++ inside, rest)

/-- The wildcards of a component, from at most `n` characters. -/
def ofCharsFrom : Nat → List Char → List Wildcard
  | 0, _ => []
  | _ + 1, [] => []
  | n + 1, '*' :: s =>
    match ofCharsFrom n s with
    | .anyText :: rest => .anyText :: rest
    | rest => .anyText :: rest
  | n + 1, '?' :: s => .anyChar :: ofCharsFrom n s
  | n + 1, '[' :: s =>
    match splitSet? s with
    | none => .char '[' :: ofCharsFrom n s
    | some (inside, rest) => setOf inside :: ofCharsFrom n rest
  | n + 1, c :: s => .char c :: ofCharsFrom n s

/-- The wildcards of a component. -/
def ofChars (s : List Char) : List Wildcard := ofCharsFrom s.length s

/-! ## Matching -/

/-- Whether the wildcard matches the character. -/
def holds : Wildcard → Char → Bool
  | anyText, _ => false
  | anyChar, _ => true
  | char d, c => c == d
  | set negated pieces, c => pieces.any (·.holds c) != negated

/-- Whether `test` accepts the text or an end of it. -/
def someEnd (test : List Char → Bool) : List Char → Bool
  | [] => test []
  | c :: s => test (c :: s) || someEnd test s

/-- Whether the wildcards match the whole text. -/
def fits : List Wildcard → List Char → Bool
  | [], s => s.isEmpty
  | anyText :: ws, s => someEnd (fits ws) s
  | _ :: _, [] => false
  | w :: ws, c :: s => w.holds c && fits ws s

end Wildcard

end SourceCensus
