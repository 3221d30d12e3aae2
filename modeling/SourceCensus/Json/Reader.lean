import SourceCensus.Json.Printer

/-!
# Reading JSON

The reader accepts the JSON grammar and nothing else: any layout, any escape, members in any order and
repeated keys included.  A surrogate that is not half of a pair has no character and is read as U+FFFD.

Every step is given fuel; twice the length of the text is always enough, because of any two steps one
consumes a character.  `Json.read?` supplies it.
-/

set_option autoImplicit false

namespace SourceCensus.Json

/-- The text without the layout at its start. -/
def skipLayout (s : List Char) : List Char :=
  s.dropWhile fun c => c == ' ' || c == '\n' || c == '\r' || c == '\t'

/-- The value of a hexadecimal digit. -/
def hexValue? (c : Char) : Option Nat :=
  if '0' ≤ c && c ≤ '9' then some (c.toNat - 0x30)
  else if 'a' ≤ c && c ≤ 'f' then some (c.toNat - 0x57)
  else if 'A' ≤ c && c ≤ 'F' then some (c.toNat - 0x37)
  else none

/-- The value of four hexadecimal digits, and the rest. -/
def readUnit? : List Char → Option (Nat × List Char)
  | a :: b :: c :: d :: rest => do
    let a ← hexValue? a
    let b ← hexValue? b
    let c ← hexValue? c
    let d ← hexValue? d
    return (((a * 16 + b) * 16 + c) * 16 + d, rest)
  | _ => none

/-- The code unit of an escape that follows, and the rest. -/
def readNextUnit? : List Char → Option (Nat × List Char)
  | '\\' :: 'u' :: rest => readUnit? rest
  | _ => none

/-- The character of the code unit `unit`, with the second half of its pair taken from `rest`. -/
def ofUnit (unit : Nat) (rest : List Char) : Char × List Char :=
  if 0xd800 ≤ unit && unit < 0xdc00 then
    match readNextUnit? rest with
    | some (low, rest') =>
      if 0xdc00 ≤ low && low < 0xe000 then
        (Char.ofNat (0x10000 + (unit - 0xd800) * 0x400 + (low - 0xdc00)), rest')
      else ('\ufffd', rest)
    | none => ('\ufffd', rest)
  else if 0xdc00 ≤ unit && unit < 0xe000 then ('\ufffd', rest)
  else (Char.ofNat unit, rest)

/-- The character of a one-letter escape. -/
def ofLetter? : Char → Option Char
  | '"' => some '"'
  | '\\' => some '\\'
  | '/' => some '/'
  | 'b' => some '\x08'
  | 'f' => some '\x0c'
  | 'n' => some '\n'
  | 'r' => some '\r'
  | 't' => some '\t'
  | _ => none

/-- The characters up to the closing quote, in reverse before `acc`, and the rest behind it. -/
def readChars? : Nat → List Char → List Char → Option (List Char × List Char)
  | 0, _, _ => none
  | _ + 1, _, [] => none
  | n + 1, acc, c :: rest =>
    if c == '"' then some (acc.reverse, rest)
    else if c == '\\' then
      match rest with
      | 'u' :: rest =>
        match readUnit? rest with
        | some (unit, rest) =>
          let (d, rest) := ofUnit unit rest
          readChars? n (d :: acc) rest
        | none => none
      | d :: rest =>
        match ofLetter? d with
        | some e => readChars? n (e :: acc) rest
        | none => none
      | [] => none
    else if c.toNat < 0x20 then none
    else readChars? n (c :: acc) rest

/-- A string behind its opening quote, and the rest. -/
def readString? (fuel : Nat) (s : List Char) : Option (String × List Char) :=
  (readChars? fuel [] s).map fun (cs, rest) => (String.ofList cs, rest)

/-- The digits at the start of the text, and the rest. -/
def spanDigits (s : List Char) : List Char × List Char := s.span Char.isDigit

/-- The whole part of a number: one zero, or digits that start with another one. -/
def readWhole? (s : List Char) : Option (List Char × List Char) :=
  match s with
  | '0' :: rest => some (['0'], rest)
  | _ =>
    let (ds, rest) := spanDigits s
    if ds.isEmpty then none else some (ds, rest)

/-- A fraction, which may be absent. -/
def readFraction? : List Char → Option (List Char × List Char)
  | '.' :: rest =>
    let (ds, rest) := spanDigits rest
    if ds.isEmpty then none else some ('.' :: ds, rest)
  | rest => some ([], rest)

/-- An exponent, which may be absent. -/
def readExponent? : List Char → Option (List Char × List Char)
  | mark :: rest =>
    if mark == 'e' || mark == 'E' then
      let (sign, rest) :=
        match rest with
        | '+' :: rest => (['+'], rest)
        | '-' :: rest => (['-'], rest)
        | rest => ([], rest)
      let (ds, rest) := spanDigits rest
      if ds.isEmpty then none else some (mark :: sign ++ ds, rest)
    else some ([], mark :: rest)
  | [] => some ([], [])

/-- A number, and the rest. -/
def readNumber? (s : List Char) : Option (Json × List Char) := do
  let (negative, body) :=
    match s with
    | '-' :: rest => (true, rest)
    | rest => (false, rest)
  let (whole, rest) ← readWhole? body
  let (fraction, rest) ← readFraction? rest
  let (exponent, rest) ← readExponent? rest
  if fraction.isEmpty && exponent.isEmpty then
    let n := whole.foldl (fun n c => n * 10 + (c.toNat - 0x30)) 0
    return (.int (if negative then -Int.ofNat n else Int.ofNat n), rest)
  else
    let sign := if negative then ['-'] else []
    return (.decimal (String.ofList (sign ++ whole ++ fraction ++ exponent)), rest)

/-- The rest behind `word`, when the text starts with it. -/
def dropWord? (word s : List Char) : Option (List Char) :=
  if word.isPrefixOf s then some (s.drop word.length) else none

mutual

/-- A value at the start of the text, and the rest. -/
def readValue? : Nat → List Char → Option (Json × List Char)
  | 0, _ => none
  | n + 1, s =>
    match skipLayout s with
    | [] => none
    | c :: rest =>
      if c == '"' then (readString? (n + 1) rest).map fun (t, rest) => (.string t, rest)
      else if c == '[' then
        match skipLayout rest with
        | ']' :: rest => some (.array [], rest)
        | _ => (readItems? n rest).map fun (vs, rest) => (.array vs, rest)
      else if c == '\x7b' then
        match skipLayout rest with
        | '\x7d' :: rest => some (.object [], rest)
        | _ => (readMembers? n rest).map fun (ms, rest) => (.object ms, rest)
      else if c == 'n' then (dropWord? "ull".toList rest).map fun rest => (.null, rest)
      else if c == 't' then (dropWord? "rue".toList rest).map fun rest => (.bool true, rest)
      else if c == 'f' then (dropWord? "alse".toList rest).map fun rest => (.bool false, rest)
      else readNumber? (c :: rest)

/-- The elements of an array up to its closing bracket, and the rest. -/
def readItems? : Nat → List Char → Option (List Json × List Char)
  | 0, _ => none
  | n + 1, s =>
    match readValue? n s with
    | none => none
    | some (v, rest) =>
      match skipLayout rest with
      | ',' :: rest => (readItems? n rest).map fun (vs, rest) => (v :: vs, rest)
      | ']' :: rest => some ([v], rest)
      | _ => none

/-- The members of an object up to its closing bracket, and the rest. -/
def readMembers? : Nat → List Char → Option (List (String × Json) × List Char)
  | 0, _ => none
  | n + 1, s =>
    match skipLayout s with
    | '"' :: rest =>
      match readString? (n + 1) rest with
      | none => none
      | some (key, rest) =>
        match skipLayout rest with
        | ':' :: rest =>
          match readValue? n rest with
          | none => none
          | some (v, rest) =>
            match skipLayout rest with
            | ',' :: rest => (readMembers? n rest).map fun (ms, rest) => ((key, v) :: ms, rest)
            | '\x7d' :: rest => some ([(key, v)], rest)
            | _ => none
        | _ => none
    | _ => none

end

/-- The value that the text writes, when it writes one and nothing else. -/
def read? (s : List Char) : Option Json :=
  match readValue? (2 * s.length + 2) s with
  | some (v, rest) => if (skipLayout rest).isEmpty then some v else none
  | none => none

end SourceCensus.Json
