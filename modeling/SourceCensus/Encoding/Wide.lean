/-!
# Encodings in units of several bytes

UTF-16 and UTF-32 write a text in units of two and four bytes, the more significant byte first or last.  As
for UTF-8, what writes no character leaves a gap: a unit out of range, half a pair without the other half,
and the bytes at the end that are no unit.

* `Wide.units`: the units that bytes write;
* `Wide.decode16`, `Wide.decode32`: characters and gaps.
-/

set_option autoImplicit false

namespace SourceCensus.Wide

/-- Which byte of a unit comes first. -/
inductive ByteOrder where
  | littleFirst
  | bigFirst
  deriving Repr, DecidableEq

/-- The number that the bytes of a unit write. -/
def unitOf (order : ByteOrder) (bytes : List UInt8) : Nat :=
  let high := match order with
    | .bigFirst => bytes
    | .littleFirst => bytes.reverse
  high.foldl (fun n b => n * 0x100 + b.toNat) 0

/-- Units of two bytes, and whether a byte is left. -/
def units16 (order : ByteOrder) : List UInt8 → List Nat × Bool
  | a :: b :: rest =>
    let (units, left) := units16 order rest
    (unitOf order [a, b] :: units, left)
  | [_] => ([], true)
  | [] => ([], false)

/-- Units of four bytes, and whether bytes are left. -/
def units32 (order : ByteOrder) : List UInt8 → List Nat × Bool
  | a :: b :: c :: d :: rest =>
    let (units, left) := units32 order rest
    (unitOf order [a, b, c, d] :: units, left)
  | [] => ([], false)
  | _ => ([], true)

/-- The first half of a pair. -/
def isHigh (n : Nat) : Bool := 0xd800 ≤ n && n < 0xdc00

/-- The second half of a pair. -/
def isLow (n : Nat) : Bool := 0xdc00 ≤ n && n < 0xe000

/-- The character that two halves of a pair write. -/
def pair (high low : Nat) : Char := Char.ofNat (0x10000 + (high - 0xd800) * 0x400 + (low - 0xdc00))

/-- The characters that units of two bytes write.  A first half at the very end leaves one gap together with
the byte that may be left. -/
def decodeUnits16 (left : Bool) : List Nat → List (Option Char)
  | [] => if left then [none] else []
  | [u] =>
    if isHigh u then [none]
    else (if isLow u then none else some (Char.ofNat u)) :: decodeUnits16 left []
  | u :: v :: rest =>
    if isHigh u then
      if isLow v then some (pair u v) :: decodeUnits16 left rest
      else none :: decodeUnits16 left (v :: rest)
    else (if isLow u then none else some (Char.ofNat u)) :: decodeUnits16 left (v :: rest)

/-- The characters that bytes write in UTF-16. -/
def decode16 (order : ByteOrder) (bytes : List UInt8) : List (Option Char) :=
  let (units, left) := units16 order bytes
  decodeUnits16 left units

/-- The character of a unit of four bytes. -/
def charOf? (n : Nat) : Option Char := if n.isValidChar then some (Char.ofNat n) else none

/-- The characters that bytes write in UTF-32. -/
def decode32 (order : ByteOrder) (bytes : List UInt8) : List (Option Char) :=
  let (units, left) := units32 order bytes
  units.map charOf? ++ (if left then [none] else [])

end SourceCensus.Wide
