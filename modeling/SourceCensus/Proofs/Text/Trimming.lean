import SourceCensus.Text.Blank
import SourceCensus.Text.Occurrence

/-!
# What trimming keeps

A line is trimmed before anything is looked for in it, while what is written about a file is written about
its lines as they are.  The two views meet here.

* Blanks at the ends of a line do not change what it is trimmed to (`trim_blanks`), and a line of blanks is
  trimmed to nothing (`trim_eq_nil`).
* A word without blanks in it is kept with all that stands between it and the blanks at the ends
  (`trim_around`), so it occurs in a line exactly if it does in the trimmed one (`isInfix_trim_iff`).

The blanks are few, so that none of them passes a test can be found out by trying them
(`eq_false_of_isBlank`).
-/

set_option autoImplicit false

namespace SourceCensus.Text

variable {s t w : List Char}

/-! ## Blanks at the ends -/

theorem trimStart_blanks_append (hs : ∀ c ∈ s, isBlank c = true) : trimStart (s ++ t) = trimStart t :=
  List.dropWhile_append_of_pos hs

theorem trimEnd_append_blanks (ht : ∀ c ∈ t, isBlank c = true) : trimEnd (s ++ t) = trimEnd s := by
  have hreverse : ∀ c ∈ t.reverse, isBlank c = true := fun c hc => ht c (List.mem_reverse.mp hc)
  rw [trimEnd, List.reverse_append, List.dropWhile_append_of_pos hreverse, trimEnd]

theorem trim_eq_nil (hs : ∀ c ∈ s, isBlank c = true) : trim s = [] := by
  have hstart : trimStart s = [] := by simpa using trimStart_blanks_append (t := []) hs
  rw [trim, hstart, trimEnd_nil]

theorem trim_append_blanks (ht : ∀ c ∈ t, isBlank c = true) : trim (s ++ t) = trim s := by
  have hstart : trimStart (s ++ t) =
      if (trimStart s).isEmpty then trimStart t else trimStart s ++ t := List.dropWhile_append
  have hblank : trimStart t = [] := by simpa using trimStart_blanks_append (t := []) ht
  rw [trim, hstart]
  split
  · next hempty => rw [hblank, trim, List.isEmpty_iff.mp hempty]
  · exact trimEnd_append_blanks ht

/-- Blanks that are put at the ends of a line are trimmed away again. -/
theorem trim_blanks {left right : List Char} (hleft : ∀ c ∈ left, isBlank c = true)
    (hright : ∀ c ∈ right, isBlank c = true) : trim (left ++ s ++ right) = trim s := by
  rw [trim_append_blanks hright, trim, trimStart_blanks_append hleft, trim]

/-! ## Words -/

theorem dropWhile_append_cons {p : Char → Bool} {c : Char} (hc : p c = false) :
    (s ++ c :: t).dropWhile p = s.dropWhile p ++ c :: t := by
  rw [List.dropWhile_append]
  split
  · next hempty => rw [List.isEmpty_iff.mp hempty, List.dropWhile_cons_of_neg (by simp [hc]), List.nil_append]
  · rfl

/-- What is dropped from the end stands behind all that stays. -/
theorem reverse_dropWhile_append_cons {p : Char → Bool} {c : Char} (hc : p c = false) :
    ((s ++ c :: t).reverse.dropWhile p).reverse = s ++ c :: (t.reverse.dropWhile p).reverse := by
  have hreverse : (s ++ c :: t).reverse = t.reverse ++ c :: s.reverse := by simp
  rw [hreverse, dropWhile_append_cons hc]
  simp

theorem trimStart_append_of_solid {c : Char} (hc : isBlank c = false) :
    trimStart (s ++ c :: t) = trimStart s ++ c :: t := dropWhile_append_cons hc

theorem trimEnd_append_of_solid {c : Char} (hc : isBlank c = false) :
    trimEnd (s ++ c :: t) = s ++ c :: trimEnd t := reverse_dropWhile_append_cons hc

/-- A word in a line is kept when the line is trimmed, and the two sides of it are trimmed apart. -/
theorem trim_around {a b : List Char} (hne : w ≠ []) (hw : ∀ c ∈ w, isBlank c = false) :
    trim (a ++ w ++ b) = trimStart a ++ w ++ trimEnd b := by
  have hstart : trimStart (a ++ w ++ b) = trimStart a ++ w ++ b := by
    cases w with
    | nil => exact absurd rfl hne
    | cons c w =>
      rw [List.append_assoc, List.cons_append, trimStart_append_of_solid (hw c List.mem_cons_self),
        List.append_assoc, List.cons_append]
  obtain ⟨init, c, rfl⟩ := (List.eq_nil_or_concat w).resolve_left hne
  have hc : isBlank c = false := hw c (by simp)
  have hsplit (r : List Char) : trimStart a ++ init.concat c ++ r = (trimStart a ++ init) ++ c :: r := by
    simp
  rw [trim, hstart, hsplit, trimEnd_append_of_solid hc, hsplit]

/-- A line with no blank at either end is trimmed already. -/
theorem trim_of_solid (hfirst : ∀ c ∈ s.head?, isBlank c = false)
    (hlast : ∀ c ∈ s.getLast?, isBlank c = false) : trim s = s := by
  obtain rfl | ⟨init, d, rfl⟩ := List.eq_nil_or_concat s
  · rfl
  · have hstart : trimStart (init.concat d) = init.concat d := by
      cases hs : init.concat d with
      | nil => rfl
      | cons c rest => exact trimStart_cons_of_not_isBlank (hfirst c (by rw [hs]; rfl))
    have hend : isBlank d = false := hlast d (by simp)
    rw [trim, hstart, List.concat_eq_append, trimEnd_append_of_solid hend, trimEnd_nil]

theorem trimEnd_isPrefix (s : List Char) : trimEnd s <+: s := by
  rw [trimEnd, ← List.reverse_suffix, List.reverse_reverse]
  exact List.dropWhile_suffix isBlank

theorem trim_isInfix (s : List Char) : trim s <:+: s :=
  (trimEnd_isPrefix (trimStart s)).isInfix.trans (List.dropWhile_suffix isBlank).isInfix

/-- A word without blanks occurs in a line exactly if it occurs in the trimmed line. -/
theorem isInfix_trim_iff (hne : w ≠ []) (hw : ∀ c ∈ w, isBlank c = false) :
    w <:+: trim s ↔ w <:+: s := by
  refine ⟨fun h => h.trans (trim_isInfix s), ?_⟩
  rintro ⟨a, b, rfl⟩
  exact ⟨trimStart a, trimEnd b, (trim_around hne hw).symm⟩

/-! ## The blanks one by one -/

/-- The code points of the blanks. -/
def blankCodes : List Nat := [
  0x09, 0x0a, 0x0b, 0x0c, 0x0d, 0x1c, 0x1d, 0x1e, 0x1f, 0x20, 0x85, 0xa0, 0x1680, 0x2000, 0x2001, 0x2002,
  0x2003, 0x2004, 0x2005, 0x2006, 0x2007, 0x2008, 0x2009, 0x200a, 0x2028, 0x2029, 0x202f, 0x205f, 0x3000]

theorem toNat_mem_blankCodes {c : Char} (h : isBlank c = true) : c.toNat ∈ blankCodes := by
  simp only [isBlank, Bool.or_eq_true, Bool.and_eq_true, decide_eq_true_eq, beq_iff_eq] at h
  simp only [blankCodes, List.mem_cons, List.not_mem_nil, or_false]
  omega

/-- What fails of each of the code points fails of a blank. -/
theorem eq_false_of_isBlank (test : Char → Bool)
    (h : (blankCodes.any fun n => test (Char.ofNat n)) = false) {c : Char} (hc : isBlank c = true) :
    test c = false := by
  have hcode := List.any_eq_false.mp h c.toNat (toNat_mem_blankCodes hc)
  rwa [Char.ofNat_toNat, Bool.not_eq_true] at hcode

end SourceCensus.Text
