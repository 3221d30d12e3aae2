import SourceCensus.Toml.Text

/-!
# Configuration files

A file is a sequence of statements, one on a line: a key with its value, the header of a table, or the header
of one more element of an array of tables.  Values stand in the table whose header came last.  A key is set
once; what is written inline is closed; a table is opened once by its header, and not at all when dotted
keys made it.

`Ledger` remembers what has been closed and opened.  A text that breaks a rule has no value, and why is not
told.

* `Toml.readValue?`: a value, inline arrays and tables included;
* `Toml.updateAt?`: the table that a key leads to, changed;
* `Toml.read?`: the table that a whole text writes.
-/

set_option autoImplicit false

namespace SourceCensus.Toml

/-- A table under construction. -/
abbrev Members := Assoc String Value

/-! ## Tables within tables -/

/-- The last element of a list replaced by what `f` makes of it. -/
def updateLast? (f : Value → Option Value) : List Value → Option (List Value)
  | [] => none
  | [v] => (f v).map fun v' => [v']
  | v :: rest => (updateLast? f rest).map (v :: ·)

/-- The table that the key leads to, changed by `f`.  Tables on the way are made when they are missing; of an
array of tables the last one is meant, if `throughLists`. -/
def updateAt? (throughLists : Bool) (f : Members → Option Members) :
    Key → Members → Option Members
  | [], t => f t
  | k :: ks, t =>
    match Assoc.get? k t with
    | none => (updateAt? throughLists f ks []).map fun t' => Assoc.put k (.table t') t
    | some (.table t') =>
      (updateAt? throughLists f ks t').map fun t' => Assoc.put k (.table t') t
    | some (.list vs) =>
      if throughLists then
        (updateLast?
          (fun v => match v with
            | .table t' => (updateAt? throughLists f ks t').map .table
            | _ => none) vs).map fun vs => Assoc.put k (.list vs) t
      else none
    | some _ => none

/-- The value put at a key that is not there yet. -/
def putNew? (k : String) (v : Value) (t : Members) : Option Members :=
  if (Assoc.get? k t).isSome then none else some (Assoc.put k v t)

/-- One more empty table in the array at a key. -/
def appendTable? (k : String) (t : Members) : Option Members :=
  match Assoc.get? k t with
  | none => some (Assoc.put k (.list [.table []]) t)
  | some (.list vs) => some (Assoc.put k (.list (vs ++ [.table []])) t)
  | some _ => none

/-- A key without its last part, and the last part. -/
def splitLast? : Key → Option (Key × String)
  | [] => none
  | [k] => some ([], k)
  | k :: ks => (splitLast? ks).map fun (front, last) => (k :: front, last)

/-! ## Layout -/

/-- The rest behind a comment, which may be absent, up to the end of its line. -/
def skipComment? (s : List Char) : Option (List Char) :=
  match s with
  | '#' :: body =>
    let comment := body.takeWhile (· != '\n')
    if comment.any isForbidden then none else some (body.drop comment.length)
  | _ => some s

/-- The rest behind spaces, line breaks and comments, in at most `n` comments. -/
def skipLayoutFrom? : Nat → List Char → Option (List Char)
  | 0, s => some s
  | n + 1, s =>
    match s.dropWhile fun c => isSpace c || c == '\n' with
    | '#' :: rest =>
      match skipComment? ('#' :: rest) with
      | some rest => skipLayoutFrom? n rest
      | none => none
    | rest => some rest

/-- The rest behind spaces, line breaks and comments. -/
def skipLayout? (s : List Char) : Option (List Char) := skipLayoutFrom? (s.length + 1) s

/-! ## Values -/

/-- Whether one of the keys leads to the key or to a table around it. -/
def isWithin (closed : List Key) (key : Key) : Bool := closed.any fun c => c.isPrefixOf key

/-- Whether the value holds other values. -/
def isContainer : Value → Bool
  | .list _ | .table _ => true
  | _ => false

mutual

/-- A value at the start of the text. -/
def readValueFrom? : Nat → List Char → Option (Value × List Char)
  | 0, _ => none
  | n + 1, s =>
    match s with
    | [] => none
    | c :: rest =>
      if c == '"' || c == '\'' then (readString? s).map fun (t, rest) => (.string t, rest)
      else if c == '[' then
        match skipLayout? rest with
        | none => none
        | some (']' :: rest) => some (.list [], rest)
        | some rest => (readItemsFrom? n rest).map fun (vs, rest) => (.list vs, rest)
      else if c == '\x7b' then
        match skipSpaces rest with
        | '\x7d' :: rest => some (.table [], rest)
        | rest => (readMembersFrom? n [] [] rest).map fun (t, rest) => (.table t, rest)
      else
        match dropWord? "true".toList s with
        | some rest => some (.bool true, rest)
        | none =>
          match dropWord? "false".toList s with
          | some rest => some (.bool false, rest)
          | none =>
            match readMoment? s with
            | some r => r
            | none =>
              match readNumber? s with
              | some r => r
              | none => readSpecial? s

/-- The elements of an array up to its closing bracket. -/
def readItemsFrom? : Nat → List Char → Option (List Value × List Char)
  | 0, _ => none
  | n + 1, s =>
    match readValueFrom? n s with
    | none => none
    | some (v, rest) =>
      match skipLayout? rest with
      | some (']' :: rest) => some ([v], rest)
      | some (',' :: rest) =>
        match skipLayout? rest with
        | none => none
        | some (']' :: rest) => some ([v], rest)
        | some rest => (readItemsFrom? n rest).map fun (vs, rest) => (v :: vs, rest)
      | _ => none

/-- The members of an inline table up to its closing brace, behind those of `t`; `closed` are the keys of
arrays and tables among them. -/
def readMembersFrom? : Nat → List Key → Members → List Char → Option (Members × List Char)
  | 0, _, _, _ => none
  | n + 1, closed, t, s =>
    match readKey? s with
    | some (key, '=' :: rest) =>
      match readValueFrom? n (skipSpaces rest) with
      | none => none
      | some (v, rest) =>
        if isWithin closed key then none
        else
          match splitLast? key with
          | none => none
          | some (front, last) =>
            match updateAt? false (putNew? last v) front t with
            | none => none
            | some t =>
              match skipSpaces rest with
              | '\x7d' :: rest => some (t, rest)
              | ',' :: rest =>
                readMembersFrom? n (if isContainer v then key :: closed else closed) t
                  (skipSpaces rest)
              | _ => none
    | _ => none

end

/-- A value at the start of the text. -/
def readValue? (s : List Char) : Option (Value × List Char) := readValueFrom? (2 * s.length + 2) s

/-! ## Statements -/

/-- What has been read of a file. -/
structure Ledger where
  table : Members := []
  /-- The key of the header that came last. -/
  header : Key := []
  /-- Keys whose values were written inline. -/
  closed : List Key := []
  /-- Keys of tables that no header can open any more. -/
  opened : List Key := []
  /-- Keys of tables that dotted keys made since the last header. -/
  pending : List Key := []
  deriving Repr

namespace Ledger

/-- The tables that dotted keys made count as opened from the next header on. -/
def settle (l : Ledger) : Ledger := { l with opened := l.opened ++ l.pending, pending := [] }

/-- The header of a table. -/
def openTable? (l : Ledger) (key : Key) : Option Ledger :=
  if l.opened.contains key || isWithin l.closed key then none
  else
    (updateAt? true some key l.table).map fun table =>
      { l with table := table, header := key, opened := key :: l.opened }

/-- The header of one more element of an array of tables, which starts with nothing opened or closed. -/
def openElement? (l : Ledger) (key : Key) : Option Ledger :=
  if isWithin l.closed key then none
  else
    match splitLast? key with
    | none => none
    | some (front, last) =>
      (updateAt? true (appendTable? last) front l.table).map fun table =>
        { l with
          table := table
          header := key
          closed := l.closed.filter fun c => !key.isPrefixOf c
          opened := key :: l.opened.filter fun c => !key.isPrefixOf c }

/-- The keys of the tables that a dotted key passes through. -/
def passed (header : Key) (front : Key) : List Key :=
  (List.range front.length).map fun i => header ++ front.take (i + 1)

/-- A key with its value. -/
def set? (l : Ledger) (key : Key) (v : Value) : Option Ledger :=
  match splitLast? key with
  | none => none
  | some (front, last) =>
    let through := passed l.header front
    if through.any l.opened.contains then none
    else if isWithin l.closed (l.header ++ front) then none
    else
      (updateAt? true (putNew? last v) (l.header ++ front) l.table).map fun table =>
        { l with
          table := table
          pending := l.pending ++ through
          closed := if isContainer v then (l.header ++ key) :: l.closed else l.closed }

/-- One statement, and the rest behind it. -/
def statement? (l : Ledger) (s : List Char) : Option (Ledger × List Char) :=
  match s with
  | '[' :: '[' :: rest =>
    match readKey? (skipSpaces rest) with
    | some (key, ']' :: ']' :: rest) => (l.settle.openElement? key).map fun l => (l, rest)
    | _ => none
  | '[' :: rest =>
    match readKey? (skipSpaces rest) with
    | some (key, ']' :: rest) => (l.settle.openTable? key).map fun l => (l, rest)
    | _ => none
  | '#' :: _ => some (l, s)
  | _ =>
    match readKey? s with
    | some (key, '=' :: rest) =>
      match readValue? (skipSpaces rest) with
      | some (v, rest) => (l.set? key v).map fun l => (l, rest)
      | none => none
    | _ => none

/-- The statements of a text, in at most `n` lines. -/
def readFrom? : Nat → Ledger → List Char → Option Ledger
  | 0, l, _ => some l
  | n + 1, l, s =>
    match skipSpaces s with
    | [] => some l
    | '\n' :: rest => readFrom? n l rest
    | s =>
      match statement? l s with
      | none => none
      | some (l, rest) =>
        match skipComment? (skipSpaces rest) with
        | none => none
        | some [] => some l
        | some ('\n' :: rest) => readFrom? n l rest
        | some _ => none

end Ledger

/-- The text with each CR LF as one line break. -/
def joinBreaks : List Char → List Char
  | [] => []
  | '\r' :: '\n' :: s => '\n' :: joinBreaks s
  | c :: s => c :: joinBreaks s

/-- The table that the text writes. -/
def read? (s : List Char) : Option Members :=
  (Ledger.readFrom? (s.length + 1) {} (joinBreaks s)).map (·.table)

end SourceCensus.Toml
