/-!
# UTF-8

Bytes are decoded one after another by a machine that is between characters or within one.  A byte that
cannot go on with the character before it leaves a gap, and is then looked at afresh; so every longest
beginning of a character that is not completed leaves exactly one gap.

* `Utf8.decode`: characters and gaps;
* `Utf8.decode?`: the text, if there is no gap;
* `Utf8.encode`: the bytes of a text.
-/

set_option autoImplicit false

namespace SourceCensus.Utf8

/-- A character that bytes have begun: how many are to come, between which bounds the next one lies, and the
bits so far. -/
structure Begun where
  missing : Nat
  low : Nat
  high : Nat
  bits : Nat
  deriving Repr, DecidableEq

/-- What the first byte of several begins. -/
def begin? (b : Nat) : Option Begun :=
  if 0xc2 ≤ b && b ≤ 0xdf then some ⟨1, 0x80, 0xbf, b - 0xc0⟩
  else if b = 0xe0 then some ⟨2, 0xa0, 0xbf, 0⟩
  else if b = 0xed then some ⟨2, 0x80, 0x9f, b - 0xe0⟩
  else if 0xe1 ≤ b && b ≤ 0xef then some ⟨2, 0x80, 0xbf, b - 0xe0⟩
  else if b = 0xf0 then some ⟨3, 0x90, 0xbf, 0⟩
  else if 0xf1 ≤ b && b ≤ 0xf3 then some ⟨3, 0x80, 0xbf, b - 0xf0⟩
  else if b = 0xf4 then some ⟨3, 0x80, 0x8f, b - 0xf0⟩
  else none

/-- A byte between characters: what it gives at once, and what it begins. -/
def first (b : Nat) : List (Option Char) × Option Begun :=
  if b < 0x80 then ([some (Char.ofNat b)], none)
  else
    match begin? b with
    | some begun => ([], some begun)
    | none => ([none], none)

/-- A byte in any state. -/
def next (state : Option Begun) (b : Nat) : List (Option Char) × Option Begun :=
  match state with
  | none => first b
  | some s =>
    if s.low ≤ b && b ≤ s.high then
      let bits := s.bits * 0x40 + (b - 0x80)
      if s.missing ≤ 1 then ([some (Char.ofNat bits)], none)
      else ([], some ⟨s.missing - 1, 0x80, 0xbf, bits⟩)
    else
      let (out, begun) := first b
      (none :: out, begun)

/-- The characters and gaps behind a state. -/
def decodeFrom : Option Begun → List UInt8 → List (Option Char)
  | none, [] => []
  | some _, [] => [none]
  | state, b :: bytes =>
    let (out, state) := next state b.toNat
    out ++ decodeFrom state bytes

/-- The characters that bytes write, with a gap where they write none. -/
def decode (bytes : List UInt8) : List (Option Char) := decodeFrom none bytes

/-- The text that bytes write. -/
def decode? (bytes : List UInt8) : Option (List Char) := (decode bytes).mapM id

/-- The bytes that write a text. -/
def encode (text : List Char) : List UInt8 := text.flatMap String.utf8EncodeChar

end SourceCensus.Utf8
