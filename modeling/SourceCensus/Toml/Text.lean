import SourceCensus.Toml.Scalar

/-!
# Texts and keys of a configuration file

A text stands between `"`, where a backslash escapes, or between `'`, where nothing does; three of either
let it run over several lines.  A key is a path of bare or quoted parts with dots between them.  Control
characters other than the tab stand in none of these.

* `Toml.readString?`: a text in one of its four forms;
* `Toml.readKey?`: a key.
-/

set_option autoImplicit false

namespace SourceCensus.Toml

/-- A space or a tab. -/
def isSpace (c : Char) : Bool := c == ' ' || c == '\t'

/-- The text without the spaces at its start. -/
def skipSpaces (s : List Char) : List Char := s.dropWhile isSpace

/-- Whether the character is a control character that may not stand in a text or a comment. -/
def isForbidden (c : Char) : Bool := (c.toNat < 0x20 && c != '\t') || c.toNat == 0x7f

/-- Whether the character may not stand in a text of several lines. -/
def isForbiddenInLines (c : Char) : Bool := isForbidden c && c != '\n'

/-! ## Escapes -/

/-- `count` hexadecimal digits. -/
def readHex? : Nat → Nat → Reader Nat
  | 0, acc, s => some (acc, s)
  | _ + 1, _, [] => none
  | count + 1, acc, c :: s =>
    match digitIn? 16 c with
    | some d => readHex? count (acc * 16 + d) s
    | none => none

/-- The character that hexadecimal digits number, which must not be half of a pair. -/
def readNumbered? (count : Nat) (s : List Char) : Option (List Char × List Char) :=
  match readHex? count 0 s with
  | some (n, rest) =>
    if n < 0xd800 || (0xe000 ≤ n && n ≤ 0x10ffff) then some ([Char.ofNat n], rest) else none
  | none => none

/-- The line break behind a backslash and the layout that follows it. -/
def skipLineBreak? (s : List Char) : Option (List Char) :=
  match skipSpaces s with
  | [] => some []
  | '\n' :: rest => some (rest.dropWhile fun c => isSpace c || c == '\n')
  | _ => none

/-- What an escape stands for, the backslash read already. -/
def readEscape? (lines : Bool) : List Char → Option (List Char × List Char)
  | [] => none
  | c :: s =>
    if lines && (isSpace c || c == '\n') then (skipLineBreak? (c :: s)).map fun rest => ([], rest)
    else if c == 'u' then readNumbered? 4 s
    else if c == 'U' then readNumbered? 8 s
    else if c == 'b' then some (['\x08'], s)
    else if c == 't' then some (['\t'], s)
    else if c == 'n' then some (['\n'], s)
    else if c == 'f' then some (['\x0c'], s)
    else if c == 'r' then some (['\r'], s)
    else if c == '"' || c == '\\' then some ([c], s)
    else none

/-! ## Texts -/

/-- The rest of a text with escapes, up to its closing quotes, in at most `n` steps. -/
def readBasicFrom? (lines : Bool) : Nat → List Char → Option (List Char × List Char)
  | 0, _ => none
  | _ + 1, [] => none
  | n + 1, c :: s =>
    if c == '"' then
      if !lines then some ([], s)
      else
        match s with
        | '"' :: '"' :: rest => some ([], rest)
        | _ => (readBasicFrom? lines n s).map fun (text, rest) => (c :: text, rest)
    else if c == '\\' then
      match readEscape? lines s with
      | none => none
      | some (cs, rest) => (readBasicFrom? lines n rest).map fun (text, rest) => (cs ++ text, rest)
    else if (if lines then isForbiddenInLines c else isForbidden c) then none
    else (readBasicFrom? lines n s).map fun (text, rest) => (c :: text, rest)

/-- The rest of a text with escapes, up to its closing quotes. -/
def readBasic? (lines : Bool) (s : List Char) : Option (List Char × List Char) :=
  readBasicFrom? lines (s.length + 1) s

/-- The rest of a text without escapes on one line. -/
def readLiteral? : List Char → Option (List Char × List Char)
  | [] => none
  | c :: s =>
    if c == '\'' then some ([], s)
    else if isForbidden c then none
    else (readLiteral? s).map fun (text, rest) => (c :: text, rest)

/-- The rest of a text without escapes on several lines. -/
def readLiteralLines? : List Char → Option (List Char × List Char)
  | [] => none
  | '\'' :: '\'' :: '\'' :: s => some ([], s)
  | c :: s =>
    if isForbiddenInLines c then none
    else (readLiteralLines? s).map fun (text, rest) => (c :: text, rest)

/-- One or two more quotes right behind the closing three belong to the text. -/
def readExtraQuotes (mark : Char) (text s : List Char) : List Char × List Char :=
  match s with
  | a :: s' =>
    if a == mark then
      match s' with
      | b :: s'' => if b == mark then (text ++ [mark, mark], s'') else (text ++ [mark], s')
      | [] => (text ++ [mark], s')
    else (text, s)
  | [] => (text, s)

/-- The text without a line break at its start. -/
def dropFirstBreak : List Char → List Char
  | '\n' :: s => s
  | s => s

/-- A text on one line. -/
def readLineString? : List Char → Option (String × List Char)
  | '"' :: s => (readBasic? false s).map fun (text, rest) => (String.ofList text, rest)
  | '\'' :: s => (readLiteral? s).map fun (text, rest) => (String.ofList text, rest)
  | _ => none

/-- A text in any of its forms. -/
def readString? (s : List Char) : Option (String × List Char) :=
  match s with
  | '"' :: '"' :: '"' :: s =>
    (readBasic? true (dropFirstBreak s)).map fun (text, rest) =>
      let (text, rest) := readExtraQuotes '"' text rest
      (String.ofList text, rest)
  | '\'' :: '\'' :: '\'' :: s =>
    (readLiteralLines? (dropFirstBreak s)).map fun (text, rest) =>
      let (text, rest) := readExtraQuotes '\'' text rest
      (String.ofList text, rest)
  | s => readLineString? s

/-! ## Keys -/

/-- A path of key parts. -/
abbrev Key := List String

/-- Whether the character can stand in a bare key. -/
def isBare (c : Char) : Bool := c.isAlphanum || c == '-' || c == '_'

/-- One part of a key. -/
def readKeyPart? (s : List Char) : Option (String × List Char) :=
  let bare := s.takeWhile isBare
  if bare.isEmpty then readLineString? s else some (String.ofList bare, s.drop bare.length)

/-- A key, in at most `n` parts, and the rest without the spaces at its start. -/
def readKeyFrom? : Nat → List Char → Option (Key × List Char)
  | 0, _ => none
  | n + 1, s =>
    match readKeyPart? s with
    | none => none
    | some (part, rest) =>
      match skipSpaces rest with
      | '.' :: rest => (readKeyFrom? n (skipSpaces rest)).map fun (key, rest) => (part :: key, rest)
      | rest => some ([part], rest)

/-- A key, and the rest without the spaces at its start. -/
def readKey? (s : List Char) : Option (Key × List Char) := readKeyFrom? (s.length + 1) s

end SourceCensus.Toml
