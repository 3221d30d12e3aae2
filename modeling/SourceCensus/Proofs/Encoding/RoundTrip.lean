import SourceCensus.Encoding

/-!
# Text written in UTF-8 and read again

A character takes one byte to four.  The first byte tells how many there are and between which bounds the
second one lies; the bounds are narrower where a longer form than needed, a surrogate or a number beyond the
last character would begin.  No character is any of these, so the bytes of each stay within the bounds
(`begin?_three`, `begin?_four`) and its bits are put together again:

> decoding the bytes of a text gives its characters, without a gap (`decode_encode`).
-/

set_option autoImplicit false

namespace SourceCensus

namespace Utf8

variable {n low high bits missing : Nat} (bytes : List UInt8)

/-! ## One byte -/

theorem decodeFrom_single (h : n < 0x80) :
    decodeFrom none (UInt8.ofNat n :: bytes) = some (Char.ofNat n) :: decodeFrom none bytes := by
  have hbyte : (UInt8.ofNat n).toNat = n := UInt8.toNat_ofNat_of_lt' (Nat.lt_trans h (by decide))
  simp [decodeFrom, next, first, hbyte, h]

theorem decodeFrom_begin {begun : Begun} (hlow : 0x80 ≤ n) (hhigh : n < 0x100)
    (h : begin? n = some begun) :
    decodeFrom none (UInt8.ofNat n :: bytes) = decodeFrom (some begun) bytes := by
  have hbyte : (UInt8.ofNat n).toNat = n := UInt8.toNat_ofNat_of_lt' hhigh
  simp [decodeFrom, next, first, hbyte, Nat.not_lt.mpr hlow, h]

theorem decodeFrom_more (hbyte : n < 0x100) (hlow : low ≤ n) (hhigh : n ≤ high) :
    decodeFrom (some ⟨missing + 2, low, high, bits⟩) (UInt8.ofNat n :: bytes) =
      decodeFrom (some ⟨missing + 1, 0x80, 0xbf, bits * 0x40 + (n - 0x80)⟩) bytes := by
  have hbyte : (UInt8.ofNat n).toNat = n := UInt8.toNat_ofNat_of_lt' hbyte
  simp [decodeFrom, next, hlow, hhigh, hbyte]

theorem decodeFrom_last (hbyte : n < 0x100) (hlow : low ≤ n) (hhigh : n ≤ high) :
    decodeFrom (some ⟨1, low, high, bits⟩) (UInt8.ofNat n :: bytes) =
      some (Char.ofNat (bits * 0x40 + (n - 0x80))) :: decodeFrom none bytes := by
  have hbyte : (UInt8.ofNat n).toNat = n := UInt8.toNat_ofNat_of_lt' hbyte
  simp [decodeFrom, next, hlow, hhigh, hbyte]

/-! ## First bytes -/

theorem begin?_two (hlow : 0x80 ≤ n) (hhigh : n < 0x800) :
    begin? (n / 64 % 32 + 0xc0) = some ⟨1, 0x80, 0xbf, n / 64⟩ := by
  have hlead : n / 64 % 32 = n / 64 := by omega
  have hrange : 0xc2 ≤ n / 64 + 0xc0 ∧ n / 64 + 0xc0 ≤ 0xdf := by omega
  rw [hlead, begin?, if_pos (by simpa using hrange)]
  simp

/-- The second of three bytes is within the bounds that the first one sets, unless the number is that of a
surrogate. -/
theorem begin?_three (hlow : 0x800 ≤ n) (hhigh : n < 0x10000) (hscalar : n < 0xd800 ∨ 0xdfff < n) :
    ∃ low high, begin? (n / 4096 % 16 + 0xe0) = some ⟨2, low, high, n / 4096⟩ ∧
      low ≤ n / 64 % 64 + 0x80 ∧ n / 64 % 64 + 0x80 ≤ high := by
  have hlead : n / 4096 % 16 = n / 4096 := by omega
  rw [hlead]
  obtain hzero | hd | hother : n / 4096 = 0 ∨ n / 4096 = 0xd ∨
      (1 ≤ n / 4096 ∧ n / 4096 ≤ 0xf ∧ n / 4096 ≠ 0xd) := by omega
  · exact ⟨0xa0, 0xbf, by rw [hzero]; rfl, by omega, by omega⟩
  · exact ⟨0x80, 0x9f, by rw [hd]; rfl, by omega, by omega⟩
  · refine ⟨0x80, 0xbf, ?_, by omega, by omega⟩
    have hrange : 0xe1 ≤ n / 4096 + 0xe0 ∧ n / 4096 + 0xe0 ≤ 0xef := by omega
    rw [begin?, if_neg (by simp), if_neg (by omega), if_neg (by omega), if_pos (by simpa using hrange)]
    simp

theorem begin?_four (hlow : 0x10000 ≤ n) (hhigh : n < 0x110000) :
    ∃ low high, begin? (n / 262144 % 8 + 0xf0) = some ⟨3, low, high, n / 262144⟩ ∧
      low ≤ n / 4096 % 64 + 0x80 ∧ n / 4096 % 64 + 0x80 ≤ high := by
  have hlead : n / 262144 % 8 = n / 262144 := by omega
  rw [hlead]
  obtain hzero | hinner | hfour : n / 262144 = 0 ∨ (1 ≤ n / 262144 ∧ n / 262144 ≤ 3) ∨ n / 262144 = 4 := by
    omega
  · exact ⟨0x90, 0xbf, by rw [hzero]; rfl, by omega, by omega⟩
  · refine ⟨0x80, 0xbf, ?_, by omega, by omega⟩
    have hrange : 0xf1 ≤ n / 262144 + 0xf0 ∧ n / 262144 + 0xf0 ≤ 0xf3 := by omega
    rw [begin?, if_neg (by simp), if_neg (by omega), if_neg (by omega), if_neg (by simp),
      if_neg (by omega), if_pos (by simpa using hrange)]
    simp
  · exact ⟨0x80, 0x8f, by rw [hfour]; rfl, by omega, by omega⟩

/-! ## Characters and texts -/

theorem decodeFrom_encodeChar (c : Char) :
    decodeFrom none (String.utf8EncodeChar c ++ bytes) = some c :: decodeFrom none bytes := by
  have hscalar : c.val.toNat < 0xd800 ∨ (0xdfff < c.val.toNat ∧ c.val.toNat < 0x110000) := c.valid
  have hread {m : Nat} (h : m = c.val.toNat) : some (Char.ofNat m) = some c := by
    rw [h]
    exact congrArg some (Char.ofNat_toNat c)
  show decodeFrom none ((if c.val.toNat ≤ 0x7f then _ else if c.val.toNat ≤ 0x7ff then _ else
    if c.val.toNat ≤ 0xffff then _ else _) ++ bytes) = _
  split
  · show decodeFrom none (_ :: bytes) = _
    rw [decodeFrom_single bytes (by omega), hread rfl]
  split
  · show decodeFrom none (_ :: _ :: bytes) = _
    rw [decodeFrom_begin _ (by omega) (by omega) (begin?_two (by omega) (by omega)),
      decodeFrom_last _ (by omega) (by omega) (by omega), hread (by omega)]
  split
  · obtain ⟨low, high, hbegin, hlow, hhigh⟩ := begin?_three (n := c.val.toNat) (by omega) (by omega) (by omega)
    show decodeFrom none (_ :: _ :: _ :: bytes) = _
    rw [decodeFrom_begin _ (by omega) (by omega) hbegin, decodeFrom_more _ (by omega) hlow hhigh,
      decodeFrom_last _ (by omega) (by omega) (by omega), hread (by omega)]
  · obtain ⟨low, high, hbegin, hlow, hhigh⟩ := begin?_four (n := c.val.toNat) (by omega) (by omega)
    show decodeFrom none (_ :: _ :: _ :: _ :: bytes) = _
    rw [decodeFrom_begin _ (by omega) (by omega) hbegin, decodeFrom_more _ (by omega) hlow hhigh,
      decodeFrom_more _ (by omega) (by omega) (by omega),
      decodeFrom_last _ (by omega) (by omega) (by omega), hread (by omega)]

/-- What was written in UTF-8 is read as it was. -/
theorem decode_encode (text : List Char) : decode (encode text) = text.map some := by
  rw [decode, encode]
  induction text with
  | nil => rfl
  | cons c text ih => rw [List.flatMap_cons, decodeFrom_encodeChar, ih, List.map_cons]

end Utf8

theorem Encoding.decode_utf8_encode (text : List Char) :
    Encoding.utf8.decode (Utf8.encode text) = .ok text := by
  simp [decode, fill, Utf8.decode_encode, Function.comp_def]

end SourceCensus
