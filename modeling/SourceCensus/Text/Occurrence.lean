/-!
# Occurrences

Whether one text occurs in another, as a test that runs beside the relation `List.IsInfix`, and at which
indices it does.
-/

set_option autoImplicit false

namespace SourceCensus.Text

/-- Whether `needle` occurs in `s`. -/
def occursIn (needle : List Char) : List Char → Bool
  | [] => needle.isEmpty
  | c :: s => needle.isPrefixOf (c :: s) || occursIn needle s

/-- The test decides the relation. -/
theorem occursIn_iff (needle s : List Char) : occursIn needle s = true ↔ needle <:+: s := by
  induction s with
  | nil => simp [occursIn]
  | cons c s ih => simp [occursIn, List.infix_cons_iff, ih]

/-- Whether an occurrence of `needle` in `s` starts at the index `i`. -/
def standsAt (needle s : List Char) (i : Nat) : Bool := needle.isPrefixOf (s.drop i)

theorem add_length_le_of_standsAt {needle s : List Char} {i : Nat} (hi : i ≤ s.length)
    (h : standsAt needle s i = true) : i + needle.length ≤ s.length := by
  have hlength := (List.isPrefixOf_iff_prefix.mp h).length_le
  rw [List.length_drop] at hlength
  omega

theorem standsAt_pair_iff {a b : Char} {s : List Char} {i : Nat} :
    standsAt [a, b] s i = true ↔ s[i]? = some a ∧ s[i + 1]? = some b := by
  rw [standsAt, ← Nat.add_zero i, ← List.getElem?_drop, Nat.add_zero, ← List.getElem?_drop]
  generalize s.drop i = r
  match r with
  | [] => simp
  | [_] => simp
  | c :: d :: r => simp [@eq_comm _ a, @eq_comm _ b]

theorem standsAt_append_left (s t needle : List Char) (i : Nat) :
    standsAt needle (s ++ t) (s.length + i) = standsAt needle t i := by
  rw [standsAt, List.drop_append, List.drop_eq_nil_of_le (Nat.le_add_right _ _), Nat.add_sub_cancel_left,
    List.nil_append, standsAt]

/-- What stands in the beginning of a text stands in the text. -/
theorem standsAt_of_prefix {needle s t : List Char} {i : Nat} (hst : s <+: t)
    (h : standsAt needle s i = true) : standsAt needle t i = true := by
  obtain ⟨u, rfl⟩ := hst
  refine List.isPrefixOf_iff_prefix.mpr ((List.isPrefixOf_iff_prefix.mp h).trans ?_)
  rw [List.drop_append]
  exact List.prefix_append _ _

theorem exists_append_of_standsAt {needle s : List Char} {i : Nat} (hi : i ≤ s.length)
    (h : standsAt needle s i = true) : ∃ a b, s = a ++ needle ++ b ∧ a.length = i := by
  obtain ⟨b, hb⟩ := List.isPrefixOf_iff_prefix.mp h
  refine ⟨s.take i, b, ?_, List.length_take_of_le hi⟩
  rw [List.append_assoc, hb, List.take_append_drop]

/-- Where the first occurrence of `needle` in `s` starts. -/
def firstAt? (needle s : List Char) : Option Nat :=
  (List.range (s.length + 1)).find? (standsAt needle s)

/-- Where the last occurrence of `needle` in `s` starts. -/
def lastAt? (needle s : List Char) : Option Nat :=
  (List.range (s.length + 1)).findRev? (standsAt needle s)

theorem firstAt?_eq_some_iff {needle s : List Char} {i : Nat} :
    firstAt? needle s = some i ↔
      i ≤ s.length ∧ standsAt needle s i = true ∧ ∀ j < i, standsAt needle s j = false := by
  rw [firstAt?, List.find?_range_eq_some, List.mem_range, Nat.lt_succ_iff, and_left_comm]
  simp

/-- The first occurrence does not come behind another one. -/
theorem exists_firstAt?_le {needle s : List Char} {i : Nat} (hi : i ≤ s.length)
    (h : standsAt needle s i = true) : ∃ d ≤ i, firstAt? needle s = some d := by
  cases hfirst : firstAt? needle s with
  | none =>
    have hnever := List.find?_eq_none.mp hfirst i (List.mem_range.mpr (Nat.lt_succ_of_le hi))
    exact absurd h hnever
  | some d =>
    obtain ⟨-, -, hbefore⟩ := firstAt?_eq_some_iff.mp hfirst
    refine ⟨d, Nat.le_of_not_lt fun hid => ?_, rfl⟩
    rw [hbefore i hid] at h
    exact Bool.noConfusion h

theorem find?_reverse_range_eq_some_iff {p : Nat → Bool} {n i : Nat} :
    (List.range n).reverse.find? p = some i ↔
      i < n ∧ p i = true ∧ ∀ j, i < j → j < n → p j = false := by
  induction n with
  | zero => simp
  | succ n ih =>
    rw [List.range_succ, List.reverse_concat, List.find?_cons]
    cases hn : p n with
    | true =>
      have hlast : i = n ↔ i < n + 1 ∧ p i = true ∧ ∀ j, i < j → j < n + 1 → p j = false := by
        constructor
        · rintro rfl
          exact ⟨Nat.lt_succ_self i, hn, fun j hij hj => absurd hj (by omega)⟩
        · rintro ⟨hi, -, hlater⟩
          have hle : ¬ i < n := fun hin => by
            simp [hlater n hin (Nat.lt_succ_self n)] at hn
          omega
      rw [← hlast, Option.some.injEq]
      exact eq_comm
    | false =>
      simp only [ih]
      constructor
      · rintro ⟨hi, hpi, hlater⟩
        refine ⟨by omega, hpi, fun j hij hj => ?_⟩
        rcases Nat.lt_succ_iff_lt_or_eq.mp hj with hj | rfl
        · exact hlater j hij hj
        · exact hn
      · rintro ⟨hi, hpi, hlater⟩
        have hne : i ≠ n := by
          rintro rfl
          simp [hn] at hpi
        exact ⟨by omega, hpi, fun j hij hj => hlater j hij (by omega)⟩

theorem lastAt?_eq_some_iff {needle s : List Char} {i : Nat} :
    lastAt? needle s = some i ↔
      i ≤ s.length ∧ standsAt needle s i = true ∧
        ∀ j, i < j → j ≤ s.length → standsAt needle s j = false := by
  rw [lastAt?, List.findRev?_eq_find?_reverse, find?_reverse_range_eq_some_iff]
  simp only [Nat.lt_succ_iff]

theorem isInfix_of_standsAt {needle s : List Char} {i : Nat} (h : standsAt needle s i = true) :
    needle <:+: s :=
  (List.isPrefixOf_iff_prefix.mp h).isInfix.trans (List.drop_suffix i s).isInfix

theorem lastAt?_eq_none {needle s : List Char} (h : ¬ needle <:+: s) : lastAt? needle s = none := by
  cases hlast : lastAt? needle s with
  | none => rfl
  | some i => exact absurd (isInfix_of_standsAt (lastAt?_eq_some_iff.mp hlast).2.1) h

/-- A text that ends in `needle` has its last occurrence there. -/
theorem lastAt?_append (s needle : List Char) : lastAt? needle (s ++ needle) = some s.length := by
  refine lastAt?_eq_some_iff.mpr ⟨by simp, ?_, fun j hj hle => ?_⟩
  · rw [standsAt, List.drop_left]
    exact List.isPrefixOf_iff_prefix.mpr List.prefix_rfl
  · rw [Bool.eq_false_iff]
    intro hstands
    have hwithin := add_length_le_of_standsAt hle hstands
    rw [List.length_append] at hwithin
    omega

end SourceCensus.Text
