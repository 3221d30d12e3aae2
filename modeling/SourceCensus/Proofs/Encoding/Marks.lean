import SourceCensus.Encoding

/-!
# Texts that lack their mark

A decoder replaces what it cannot read, so one expects that every content is a text in every encoding.  There
is one exception:

> bytes are no text exactly when the encoding wants a mark, there are enough bytes for one, and they do not
> start with any (`exists_decode_iff`).

With fewer bytes than a mark has, the decoder waits for more and then replaces them like any others.
-/

set_option autoImplicit false

namespace SourceCensus.Encoding

/-- The marks that tell the byte order in an encoding that wants one. -/
def orderMarks : Encoding → List (List UInt8)
  | utf16Marked => [[0xff, 0xfe], [0xfe, 0xff]]
  | utf32Marked => [[0xff, 0xfe, 0, 0], [0, 0, 0xfe, 0xff]]
  | _ => []

/-- The bytes of a unit. -/
def unitLength : Encoding → Nat
  | utf16 _ | utf16Marked => 2
  | utf32 _ | utf32Marked => 4
  | _ => 1

/-- There is room for the mark that the encoding wants, and none is there. -/
structure LacksMark (e : Encoding) (bytes : List UInt8) : Prop where
  wants : e.wantsMark = true
  room : e.unitLength ≤ bytes.length
  unmarked : ∀ mark ∈ e.orderMarks, ¬ mark <+: bytes

variable {bytes : List UInt8}

theorem order16?_eq_none_iff :
    order16? bytes = none ↔ ∀ mark ∈ orderMarks utf16Marked, ¬ mark <+: bytes := by
  simp only [orderMarks, List.mem_cons, List.not_mem_nil, or_false, forall_eq_or_imp, forall_eq]
  constructor
  · intro h
    constructor
    · rintro ⟨rest, rfl⟩
      cases h
    · rintro ⟨rest, rfl⟩
      cases h
  · rintro ⟨hlittle, hbig⟩
    unfold order16?
    split
    · next rest => exact absurd ⟨rest, rfl⟩ hlittle
    · next rest => exact absurd ⟨rest, rfl⟩ hbig
    · rfl

theorem order32?_eq_none_iff :
    order32? bytes = none ↔ ∀ mark ∈ orderMarks utf32Marked, ¬ mark <+: bytes := by
  simp only [orderMarks, List.mem_cons, List.not_mem_nil, or_false, forall_eq_or_imp, forall_eq]
  constructor
  · intro h
    constructor
    · rintro ⟨rest, rfl⟩
      cases h
    · rintro ⟨rest, rfl⟩
      cases h
  · rintro ⟨hlittle, hbig⟩
    unfold order32?
    split
    · next rest => exact absurd ⟨rest, rfl⟩ hlittle
    · next rest => exact absurd ⟨rest, rfl⟩ hbig
    · rfl

theorem decode_of_lacksMark {e : Encoding} (h : e.LacksMark bytes) :
    e.decode bytes = .error (.noByteOrder (8 * e.unitLength)) := by
  obtain ⟨hwants, hroom, hunmarked⟩ := h
  cases e with
  | utf16Marked =>
    rw [decode, order16?_eq_none_iff.mpr hunmarked]
    exact if_pos hroom
  | utf32Marked =>
    rw [decode, order32?_eq_none_iff.mpr hunmarked]
    exact if_pos hroom
  | _ => cases hwants

theorem exists_decode_of_not_lacksMark {e : Encoding} (h : ¬ e.LacksMark bytes) :
    ∃ text, e.decode bytes = .ok text := by
  cases hwants : e.wantsMark with
  | false => exact decode_ok hwants bytes
  | true =>
    cases e with
    | utf16Marked =>
      rw [decode]
      cases horder : order16? bytes with
      | some found => exact ⟨_, rfl⟩
      | none =>
        have hshort : ¬ 2 ≤ bytes.length :=
          fun hroom => h ⟨rfl, hroom, order16?_eq_none_iff.mp horder⟩
        exact ⟨_, if_neg hshort⟩
    | utf32Marked =>
      rw [decode]
      cases horder : order32? bytes with
      | some found => exact ⟨_, rfl⟩
      | none =>
        have hshort : ¬ 4 ≤ bytes.length :=
          fun hroom => h ⟨rfl, hroom, order32?_eq_none_iff.mp horder⟩
        exact ⟨_, if_neg hshort⟩
    | _ => cases hwants

theorem exists_decode_iff {e : Encoding} :
    (∃ text, e.decode bytes = .ok text) ↔ ¬ e.LacksMark bytes := by
  constructor
  · rintro ⟨text, htext⟩ hlacks
    rw [decode_of_lacksMark hlacks] at htext
    cases htext
  · exact exists_decode_of_not_lacksMark

end SourceCensus.Encoding
