import SourceCensus.Text.Quoted

/-!
# JSON values and their written form

A report is written as JSON with one member or element on a line, each level two spaces further in.  All
that is not plain ASCII is escaped, a character beyond U+FFFF as a pair of surrogates, so the written form
can be stored in any encoding.  An array or object without content stays on its line.

* `Json`: the values.  A number with a fraction or an exponent is kept as its text, because no report
  holds one;
* `Json.render`: the written form.
-/

set_option autoImplicit false

namespace SourceCensus

/-- A JSON value.  The members of an object are kept in order. -/
inductive Json where
  | null
  | bool (b : Bool)
  | int (n : Int)
  | decimal (text : String)
  | string (s : String)
  | array (items : List Json)
  | object (members : List (String × Json))
  deriving Repr, BEq, Inhabited

namespace Json

/-- A code unit by its number. -/
def unitEscape (n : Nat) : List Char := '\\' :: 'u' :: Text.hexDigits n 4

/-- One character of a written string. -/
def escapeChar (c : Char) : List Char :=
  if c == '"' then ['\\', '"']
  else if c == '\\' then ['\\', '\\']
  else if c == '\n' then ['\\', 'n']
  else if c == '\r' then ['\\', 'r']
  else if c == '\t' then ['\\', 't']
  else if c == '\x0c' then ['\\', 'f']
  else if c == '\x08' then ['\\', 'b']
  else if 0x20 ≤ c.toNat && c.toNat ≤ 0x7e then [c]
  else if c.toNat < 0x10000 then unitEscape c.toNat
  else
    let n := c.toNat - 0x10000
    unitEscape (0xd800 + n / 0x400) ++ unitEscape (0xdc00 + n % 0x400)

/-- A written string, quotes included. -/
def renderString (s : String) : List Char :=
  '"' :: s.toList.flatMap escapeChar ++ ['"']

/-- A line break and the indentation of the level. -/
def lineBreak (level : Nat) : List Char := '\n' :: List.replicate (2 * level) ' '

/-- The parts one after another with `separator` between them. -/
def join (separator : List Char) : List (List Char) → List Char
  | [] => []
  | [part] => part
  | part :: parts => part ++ separator ++ join separator parts

/-- The parts between brackets, each on a line of the level below. -/
def bracketed (level : Nat) (opening closing : Char) (parts : List (List Char)) : List Char :=
  if parts.isEmpty then [opening, closing]
  else
    opening :: lineBreak (level + 1) ++ join (',' :: lineBreak (level + 1)) parts ++
      lineBreak level ++ [closing]

mutual

/-- The written form of a value that stands at the level. -/
def renderAt (level : Nat) : Json → List Char
  | null => "null".toList
  | bool b => (if b then "true" else "false").toList
  | int n => (toString n).toList
  | decimal text => text.toList
  | string s => renderString s
  | array items => bracketed level '[' ']' (renderItems (level + 1) items)
  | object members => bracketed level '\x7b' '\x7d' (renderMembers (level + 1) members)

/-- The written forms of the elements of an array. -/
def renderItems (level : Nat) : List Json → List (List Char)
  | [] => []
  | v :: rest => renderAt level v :: renderItems level rest

/-- The written forms of the members of an object. -/
def renderMembers (level : Nat) : List (String × Json) → List (List Char)
  | [] => []
  | (key, v) :: rest =>
    (renderString key ++ ": ".toList ++ renderAt level v) :: renderMembers level rest

end

/-- The written form of a value. -/
def render (v : Json) : String := String.ofList (renderAt 0 v)

end Json

end SourceCensus
