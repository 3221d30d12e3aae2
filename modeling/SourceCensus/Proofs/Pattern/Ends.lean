import SourceCensus.Proofs.Pattern.Describing

/-!
# How a match ends

A match of a long pattern is hard to describe, but its last character is not: a pattern whose last part is one
character can only stop right behind that character.  This is enough to keep shapes apart that end in
different characters, whatever comes before.

* `EndsIn c p`: every match of `p` stops behind a `c`;
* `closing`: the last character of a line that may carry one last newline, and so, for a shape that ends in
  `c` and fits the line, the character `c` (`closing_of_fitsLine`).
-/

set_option autoImplicit false

namespace SourceCensus.Pattern

variable {p q : Pattern} {s : List Char} {c : Char}

/-! ## The last character of a match -/

/-- Every match stops right behind the character. -/
def EndsIn (c : Char) (p : Pattern) : Prop := ∀ s r, r ∈ rests p s → c :: r <:+ s

theorem endsIn_one (c : Char) : EndsIn c (one (.char c)) := by
  intro s r h
  cases s with
  | nil => exact absurd h List.not_mem_nil
  | cons d s =>
    rw [rests, restsOne] at h
    split at h
    · next hd =>
      obtain rfl := List.mem_singleton.mp h
      obtain rfl := eq_of_beq hd
      exact List.suffix_refl _
    · exact absurd h List.not_mem_nil

theorem EndsIn.seq (h : EndsIn c q) (p : Pattern) : EndsIn c (.seq p q) := by
  intro s r hr
  obtain ⟨t, ht, hr⟩ := List.mem_flatMap.mp hr
  exact (h t r hr).trans (isSuffix_of_mem_rests ht)

theorem EndsIn.chain {ps : List Pattern} (h : ps.getLast? = some p) (hp : EndsIn c p) :
    EndsIn c (chain ps) := by
  induction ps with
  | nil => cases h
  | cons q ps ih =>
    cases ps with
    | nil =>
      obtain rfl := Option.some.inj h
      exact hp
    | cons q' ps => exact (ih h).seq q

/-! ## The last character of a line -/

/-- The last character of a line, one newline at its end apart. -/
def closing (s : List Char) : Option Char :=
  if s.getLast? = some '\n' then s.dropLast.getLast? else s.getLast?

theorem closing_of_fitsLine (hp : EndsIn c p) (hc : c ≠ '\n') (h : fitsLine p s = true) :
    closing s = some c := by
  rcases fitsLine_iff.mp h with hr | hr
  · obtain ⟨t, rfl⟩ := hp s [] hr
    have hlast : ¬ (t ++ [c]).getLast? = some '\n' := by simpa using hc
    rw [closing, if_neg hlast, List.getLast?_concat]
  · obtain ⟨t, rfl⟩ := hp s ['\n'] hr
    have hsplit : t ++ [c, '\n'] = (t ++ [c]) ++ ['\n'] := by simp
    rw [hsplit, closing, List.getLast?_concat, if_pos rfl, List.dropLast_concat, List.getLast?_concat]

end SourceCensus.Pattern
