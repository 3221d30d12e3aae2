import SourceCensus.Encoding.Utf8
import SourceCensus.Encoding.Wide
import SourceCensus.Error

/-!
# Encodings of files

A file is decoded by the encoding that the settings name.  Bytes that write no character are read as the
replacement character, so that no content is refused, with one exception: a text in wide units that does
not say in its first unit which byte comes first.

* `Encoding.ofName?`: the encoding of a name, which may be spelled in many ways;
* `Encoding.decode`: the text that bytes write;
* `Encoding.decode_ok`: only wide units without a mark are refused.
-/

set_option autoImplicit false

namespace SourceCensus

/-- How bytes write a text. -/
inductive Encoding where
  | utf8
  /-- UTF-8 with a mark at the start, which is dropped. -/
  | utf8Marked
  | ascii
  | latin1
  | latin9
  | windows1252
  | utf16 (order : Wide.ByteOrder)
  /-- UTF-16 with a mark at the start that tells the byte order. -/
  | utf16Marked
  | utf32 (order : Wide.ByteOrder)
  /-- UTF-32 with a mark at the start that tells the byte order. -/
  | utf32Marked
  deriving Repr, DecidableEq

namespace Encoding

/-! ## Names -/

/-- The name of each encoding and its other names, in lower case, with `_` between their parts. -/
def names : List (Encoding × String × List String) := [
  (.utf8, "utf_8", ["u8", "utf", "utf8", "utf8_ucs2", "utf8_ucs4", "cp65001"]),
  (.utf8Marked, "utf_8_sig", []),
  (.ascii, "ascii", ["646", "ansi_x3_4_1968", "ansi_x3_4_1986", "cp367", "csascii", "ibm367",
    "iso646_us", "iso_646_irv_1991", "iso_ir_6", "us", "us_ascii"]),
  (.latin1, "latin_1", ["8859", "cp819", "csisolatin1", "ibm819", "iso8859", "iso8859_1",
    "iso_8859_1", "iso_8859_1_1987", "iso_ir_100", "l1", "latin", "latin1"]),
  (.latin9, "iso8859_15", ["iso_8859_15", "l9", "latin9"]),
  (.windows1252, "cp1252", ["1252", "windows_1252"]),
  (.utf16 .littleFirst, "utf_16_le", ["unicodelittleunmarked", "utf_16le"]),
  (.utf16 .bigFirst, "utf_16_be", ["unicodebigunmarked", "utf_16be"]),
  (.utf16Marked, "utf_16", ["u16", "utf16"]),
  (.utf32 .littleFirst, "utf_32_le", ["utf_32le"]),
  (.utf32 .bigFirst, "utf_32_be", ["utf_32be"]),
  (.utf32Marked, "utf_32", ["u32", "utf32"])]

/-- The letters, digits and dots of a name in lower case, with one `_` where others stand between them; `apart`
says that others stand in front of the text. -/
def canonicalFrom (apart first : Bool) : List Char → List Char
  | [] => []
  | c :: s =>
    if c.isAlphanum || c == '.' then
      if apart && !first then '_' :: c.toLower :: canonicalFrom false false s
      else c.toLower :: canonicalFrom false false s
    else canonicalFrom true first s

/-- The name in the form that `names` has, but for its dots. -/
def canonical (name : String) : String := String.ofList (canonicalFrom false true name.toList)

/-- The name with `_` for each dot. -/
def withoutDots (name : String) : String := name.map fun c => if c = '.' then '_' else c

/-- Whether a name is one of an encoding's; a dot stands for `_` in the other names only. -/
def isNamed (name : String) (entry : Encoding × String × List String) : Bool :=
  entry.2.1 = canonical name || entry.2.2.contains (withoutDots (canonical name))

/-- The encoding of a name. -/
def ofName? (name : String) : Option Encoding := (names.find? (isNamed name)).map (·.1)

/-! ## Single bytes -/

/-- What Latin-9 has in other places than Latin-1. -/
def latin9Changes : List (Nat × Char) := [
  (0xa4, '€'), (0xa6, 'Š'), (0xa8, 'š'), (0xb4, 'Ž'), (0xb8, 'ž'), (0xbc, 'Œ'), (0xbd, 'œ'),
  (0xbe, 'Ÿ')]

/-- What Windows-1252 has from 80 to 9F. -/
def windows1252Changes : List (Nat × Char) := [
  (0x80, '€'), (0x82, '‚'), (0x83, 'ƒ'), (0x84, '„'), (0x85, '…'), (0x86, '†'), (0x87, '‡'),
  (0x88, 'ˆ'), (0x89, '‰'), (0x8a, 'Š'), (0x8b, '‹'), (0x8c, 'Œ'), (0x8e, 'Ž'), (0x91, '‘'),
  (0x92, '’'), (0x93, '“'), (0x94, '”'), (0x95, '•'), (0x96, '–'), (0x97, '—'), (0x98, '˜'),
  (0x99, '™'), (0x9a, 'š'), (0x9b, '›'), (0x9c, 'œ'), (0x9e, 'ž'), (0x9f, 'Ÿ')]

/-- The character of a byte in Latin-9. -/
def latin9Char (b : Nat) : Char := (latin9Changes.lookup b).getD (Char.ofNat b)

/-- The character of a byte in Windows-1252, which leaves some bytes without one. -/
def windows1252Char? (b : Nat) : Option Char :=
  match windows1252Changes.lookup b with
  | some c => some c
  | none => if 0x80 ≤ b && b ≤ 0x9f then none else some (Char.ofNat b)

/-- The character of a byte in ASCII. -/
def asciiChar? (b : Nat) : Option Char := if b < 0x80 then some (Char.ofNat b) else none

/-! ## Marks -/

/-- The mark of UTF-8. -/
def utf8Mark : List UInt8 := [0xef, 0xbb, 0xbf]

/-- UTF-8 with its mark dropped.  A text that breaks off within the mark is empty. -/
def decodeUtf8Marked (bytes : List UInt8) : List (Option Char) :=
  if utf8Mark.isPrefixOf bytes then Utf8.decode (bytes.drop 3)
  else if bytes.isPrefixOf utf8Mark then []
  else Utf8.decode bytes

/-- The byte order that the mark of UTF-16 tells, and the bytes behind it. -/
def order16? : List UInt8 → Option (Wide.ByteOrder × List UInt8)
  | 0xff :: 0xfe :: rest => some (.littleFirst, rest)
  | 0xfe :: 0xff :: rest => some (.bigFirst, rest)
  | _ => none

/-- The byte order that the mark of UTF-32 tells, and the bytes behind it. -/
def order32? : List UInt8 → Option (Wide.ByteOrder × List UInt8)
  | 0xff :: 0xfe :: 0 :: 0 :: rest => some (.littleFirst, rest)
  | 0 :: 0 :: 0xfe :: 0xff :: rest => some (.bigFirst, rest)
  | _ => none

/-! ## Texts -/

/-- What is read where bytes write no character. -/
def replacement : Char := '\ufffd'

/-- Characters with the gaps filled. -/
def fill (chars : List (Option Char)) : List Char := chars.map (·.getD replacement)

/-- The text that the bytes write. -/
def decode (e : Encoding) (bytes : List UInt8) : Except Defect (List Char) :=
  match e with
  | utf8 => .ok (fill (Utf8.decode bytes))
  | utf8Marked => .ok (fill (decodeUtf8Marked bytes))
  | ascii => .ok (fill (bytes.map fun b => asciiChar? b.toNat))
  | latin1 => .ok (bytes.map fun b => Char.ofNat b.toNat)
  | latin9 => .ok (bytes.map fun b => latin9Char b.toNat)
  | windows1252 => .ok (fill (bytes.map fun b => windows1252Char? b.toNat))
  | utf16 order => .ok (fill (Wide.decode16 order bytes))
  | utf16Marked =>
    match order16? bytes with
    | some (order, rest) => .ok (fill (Wide.decode16 order rest))
    | none =>
      if 2 ≤ bytes.length then .error (.noByteOrder 16)
      else .ok (fill (Wide.decode16 .littleFirst bytes))
  | utf32 order => .ok (fill (Wide.decode32 order bytes))
  | utf32Marked =>
    match order32? bytes with
    | some (order, rest) => .ok (fill (Wide.decode32 order rest))
    | none =>
      if 4 ≤ bytes.length then .error (.noByteOrder 32)
      else .ok (fill (Wide.decode32 .littleFirst bytes))

/-- Whether the encoding wants a mark that tells the byte order. -/
def wantsMark : Encoding → Bool
  | utf16Marked | utf32Marked => true
  | _ => false

/-- Without a wanted mark every content can be read. -/
theorem decode_ok {e : Encoding} (h : e.wantsMark = false) (bytes : List UInt8) :
    ∃ text, e.decode bytes = .ok text := by
  cases e <;> first | exact ⟨_, rfl⟩ | simp [wantsMark] at h

end Encoding

end SourceCensus
