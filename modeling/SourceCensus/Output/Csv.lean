/-!
# Comma-separated values

Rows end in CR LF and fields are separated by commas.  A field that holds a comma, a quote or a line break
is quoted, its own quotes doubled.  A row of one empty field is quoted too, because it would otherwise look
like no row.

* `Csv.render`: the written form of rows;
* `Csv.read?`: the rows that a text writes, by the common grammar: quoted fields may hold anything, other
  fields neither quotes nor line breaks, and the last row may do without its CR LF.
-/

set_option autoImplicit false

namespace SourceCensus.Csv

/-! ## Writing -/

/-- Whether a field with `c` in it has to be quoted. -/
def isSpecial (c : Char) : Bool := c == ',' || c == '"' || c == '\r' || c == '\n'

/-- The text with its quotes doubled. -/
def doubled : List Char → List Char
  | [] => []
  | c :: s => if c == '"' then '"' :: '"' :: doubled s else c :: doubled s

/-- The written form of a field. -/
def renderField (s : List Char) : List Char :=
  if s.any isSpecial then '"' :: doubled s ++ ['"'] else s

/-- The fields with commas between them. -/
def renderFields : List (List Char) → List Char
  | [] => []
  | [field] => renderField field
  | field :: fields => renderField field ++ ',' :: renderFields fields

/-- The written form of a row. -/
def renderRow (fields : List (List Char)) : List Char :=
  (if fields = [[]] then ['"', '"'] else renderFields fields) ++ ['\r', '\n']

/-- The written form of rows. -/
def render (rows : List (List String)) : String :=
  String.ofList (rows.flatMap fun row => renderRow (row.map String.toList))

/-! ## Reading -/

/-- The rest of a quoted field and what stands behind its closing quote. -/
def readQuoted? : List Char → Option (List Char × List Char)
  | [] => none
  | '"' :: '"' :: s => (readQuoted? s).map fun (field, rest) => ('"' :: field, rest)
  | '"' :: s => some ([], s)
  | c :: s => (readQuoted? s).map fun (field, rest) => (c :: field, rest)

/-- A field and what stands behind it. -/
def readField? : List Char → Option (List Char × List Char)
  | '"' :: s => readQuoted? s
  | s => some (s.takeWhile (!isSpecial ·), s.dropWhile (!isSpecial ·))

/-- The rows that the text writes, with `row` the fields in front of it, in at most `n` fields. -/
def readRows? : Nat → List (List Char) → List Char → Option (List (List (List Char)))
  | 0, _, _ => none
  | n + 1, row, s =>
    match readField? s with
    | none => none
    | some (field, []) => some [row ++ [field]]
    | some (field, ',' :: rest) => readRows? n (row ++ [field]) rest
    | some (field, '\r' :: '\n' :: rest) =>
      if rest.isEmpty then some [row ++ [field]]
      else (readRows? n [] rest).map ((row ++ [field]) :: ·)
    | some _ => none

/-- The rows that the text writes. -/
def read? (s : List Char) : Option (List (List String)) :=
  if s.isEmpty then some []
  else (readRows? (s.length + 1) [] s).map fun rows =>
    rows.map fun row => row.map String.ofList

end SourceCensus.Csv
