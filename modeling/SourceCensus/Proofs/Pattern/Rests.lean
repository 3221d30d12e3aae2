import Mathlib.Data.List.Basic
import SourceCensus.Pattern.Capture
import SourceCensus.Text.Occurrence

/-!
# Patterns on one line

The patterns that look for a marker are made of a few shapes only: a literal text, any characters at all,
and any characters as long as something does not start at them.  On a line, that is on a text without a
newline, what such a pattern leaves behind can be written down by indices.

* A literal text matches where it stands (`rests_text`).
* One character leaves the next rest, where it passes (`flatMap_restsOne_map_drop`).
* Any characters leave every rest of the line, the empty one first (`rests_star_any`).
* Characters at which a pattern does not start leave every rest up to the first place where it does
  (`rests_star_unless`), again the farthest first.

The rests come farthest first, so a capture finds its middle part at the last index that its first part
leaves (`Capture.span?_of_rests`).
-/

set_option autoImplicit false

namespace SourceCensus

open Text (standsAt)

namespace Pattern

variable {s : List Char}

theorem run_seq {α : Type} (p q : Pattern) (s : List Char) (k : List Char → Option α) :
    run (seq p q) s k = run p s fun r => run q r k := rfl

/-! ## Literal texts -/

theorem rests_text_cons (c : Char) (w s : List Char) :
    rests (text (c :: w)) s = (restsOne (· == c) s).flatMap (rests (text w)) := by
  cases w with
  | nil =>
    change restsOne (· == c) s = (restsOne (· == c) s).flatMap fun r => [r]
    simp
  | cons d w => rfl

theorem rests_text (w s : List Char) :
    rests (text w) s = if w.isPrefixOf s then [s.drop w.length] else [] := by
  induction w generalizing s with
  | nil => simp [text, rests]
  | cons c w ih =>
    rw [rests_text_cons]
    cases s with
    | nil => simp [restsOne]
    | cons d s =>
      by_cases hcd : d = c
      · simp [restsOne, hcd, ih]
      · have hdc : ¬ c = d := fun h => hcd h.symm
        simp [restsOne, hcd, hdc]

theorem isEmpty_rests_text (w s : List Char) (j : Nat) :
    (rests (text w) (s.drop j)).isEmpty = !standsAt w s j := by
  rw [rests_text, standsAt]
  cases w.isPrefixOf (s.drop j) <;> rfl

theorem run_text {α : Type} (w s : List Char) (k : List Char → Option α) :
    run (text w) s k = if w.isPrefixOf s then k (s.drop w.length) else none := by
  rw [run_eq_findSome?, rests_text]
  split <;> simp

/-! ## Single characters -/

theorem restsOne_drop (test : Char → Bool) (s : List Char) (k : Nat) :
    restsOne test (s.drop k) = if s[k]?.any test then [s.drop (k + 1)] else [] := by
  by_cases hk : k < s.length
  · rw [List.drop_eq_getElem_cons hk, List.getElem?_eq_getElem hk]
    rfl
  · have hle := Nat.le_of_not_lt hk
    rw [List.drop_eq_nil_of_le hle, List.getElem?_eq_none hle]
    rfl

theorem flatMap_restsOne_map_drop (test : Char → Bool) (s : List Char) (indices : List Nat) :
    (indices.map s.drop).flatMap (restsOne test) =
      (indices.filter fun k => s[k]?.any test).map fun k => s.drop (k + 1) := by
  induction indices with
  | nil => rfl
  | cons k indices ih =>
    rw [List.map_cons, List.flatMap_cons, ih, restsOne_drop, List.filter_cons]
    split <;> rfl

/-! ## Repeated characters -/

/-- Rounds that take one character each, as long as `go` holds of what is left, stop behind any number of
characters of which `go` held; the more the better. -/
theorem restsStar_eq_map_drop {step : List Char → List (List Char)} (go : List Char → Bool)
    (hnil : step [] = [])
    (hcons : ∀ c s, c ≠ '\n' → step (c :: s) = if go (c :: s) then [s] else []) :
    ∀ (n : Nat) (s : List Char), '\n' ∉ s → s.length ≤ n →
      restsStar step n s =
        ((List.range (s.length + 1)).reverse.filter fun k =>
          (List.range k).all fun j => go (s.drop j)).map s.drop := by
  intro n
  induction n with
  | zero =>
    intro s _ hlength
    obtain rfl : s = [] := List.eq_nil_of_length_eq_zero (Nat.le_zero.mp hlength)
    rfl
  | succ n ih =>
    intro s hs hlength
    cases s with
    | nil =>
      rw [restsStar, hnil]
      rfl
    | cons c s =>
      rw [List.mem_cons, not_or] at hs
      have hrange (k : Nat) : ((List.range (k + 1)).all fun j => go ((c :: s).drop j)) =
          (go (c :: s) && (List.range k).all fun j => go (s.drop j)) := by
        simp [List.range_succ_eq_map, List.all_map, Function.comp_def]
      rw [restsStar, hcons c s (Ne.symm hs.1), List.length_cons, List.range_succ_eq_map,
        List.reverse_cons, List.filter_append, List.map_append, ← List.map_reverse,
        List.filter_map, List.map_map]
      congr 1
      · cases hgo : go (c :: s) with
        | true =>
          simp only [if_true, List.flatMap_singleton, ih s hs.2 (by simpa using hlength)]
          simp [Function.comp_def, hrange, hgo]
        | false => simp [Function.comp_def, hrange, hgo]

/-- Any characters leave every rest of a line, the empty one first. -/
theorem rests_star_any (hs : '\n' ∉ s) :
    rests (star any) s = (List.range (s.length + 1)).reverse.map s.drop := by
  have hstep : ∀ c r, c ≠ '\n' → rests any (c :: r) = if true then [r] else [] := by
    intro c r hc
    simp [rests, restsOne, hc]
  rw [rests, restsStar_eq_map_drop (fun _ => true) rfl hstep _ s hs (Nat.le_refl _)]
  have hall (k : Nat) : ((List.range k).all fun _ => true) = true :=
    List.all_eq_true.mpr fun _ _ => rfl
  simp [hall]

/-- Characters at which `p` does not start leave every rest up to the first place where it does. -/
theorem rests_star_unless (p : Pattern) (hs : '\n' ∉ s) :
    rests (star (seq (notAhead p) any)) s =
      ((List.range (s.length + 1)).reverse.filter fun k =>
        (List.range k).all fun j => (rests p (s.drop j)).isEmpty).map s.drop := by
  have hnil : rests (seq (notAhead p) any) [] = [] := by
    rw [rests, rests]
    split <;> simp [rests, restsOne]
  have hstep : ∀ c r, c ≠ '\n' →
      rests (seq (notAhead p) any) (c :: r) =
        if (rests p (c :: r)).isEmpty then [r] else [] := by
    intro c r hc
    rw [rests, rests]
    split <;> simp [rests, restsOne, hc]
  rw [rests, restsStar_eq_map_drop (fun r => (rests p r).isEmpty) hnil hstep _ s hs (Nat.le_refl _)]

/-- Any characters reach the end of a line at the first attempt. -/
theorem run_star_any {α : Type} {k : List Char → Option α} {b : α} (hs : '\n' ∉ s)
    (hk : k [] = some b) : run (star any) s k = some b := by
  rw [run_eq_findSome?, rests_star_any hs, List.range_succ, List.reverse_concat, List.map_cons,
    List.findSome?_cons, List.drop_length, hk]

end Pattern

/-! ## Captures -/

namespace Capture

variable {before : Pattern} {w s : List Char}

/-- A capture of a literal text tries the rests of its first part in turn; any characters behind the text
do. -/
theorem find?_of_rests {indices : List Nat} (hs : '\n' ∉ s)
    (hrests : before.rests s = indices.map s.drop) :
    find? ⟨before, .text w, .star .any⟩ Pattern.done s =
      (indices.find? (standsAt w s)).map fun i => (s.drop i, (s.drop i).drop w.length) := by
  have htry (i : Nat) :
      ((Pattern.text w).run (s.drop i) fun behind =>
        (Pattern.star .any).run behind fun left =>
          (Pattern.done left).map fun _ => (s.drop i, behind)) =
        (Option.guard (standsAt w s) i).map fun i => (s.drop i, (s.drop i).drop w.length) := by
    rw [Pattern.run_text, Option.guard, standsAt]
    split
    · exact Pattern.run_star_any
        (fun hmem => hs (List.mem_of_mem_drop (List.mem_of_mem_drop hmem))) rfl
    · rfl
  rw [find?, Pattern.run_eq_findSome?, hrests, List.findSome?_map, ← List.findSome?_guard,
    List.map_findSome?]
  congr 1
  funext i
  exact htry i

/-- A capture of a literal text finds the last index at which the text stands, of those that its first
part leaves. -/
theorem span?_of_rests {leaves : Nat → Bool} (hs : '\n' ∉ s)
    (hrests : before.rests s =
      ((List.range (s.length + 1)).reverse.filter leaves).map s.drop) :
    span? ⟨before, .text w, .star .any⟩ s =
      ((List.range (s.length + 1)).findRev? fun i => standsAt w s i && leaves i).map
        fun i => ⟨i, i + w.length⟩ := by
  have hlast : ((List.range (s.length + 1)).reverse.filter leaves).find? (standsAt w s) =
      (List.range (s.length + 1)).findRev? fun i => standsAt w s i && leaves i := by
    rw [List.find?_filter, List.findRev?_eq_find?_reverse]
    congr 1
    funext i
    rw [Bool.decide_and, Bool.decide_eq_true, Bool.decide_eq_true, Bool.and_comm]
  rw [span?, find?_of_rests hs hrests, hlast, Option.map_map]
  refine Option.map_congr fun i hi => ?_
  rw [List.findRev?_eq_find?_reverse, Text.find?_reverse_range_eq_some_iff] at hi
  obtain ⟨hlt, hboth, -⟩ := hi
  have hle : i ≤ s.length := Nat.le_of_lt_succ hlt
  -- The text lies within the line, so lengths from the end are indices from the start.
  have hwhole := Text.add_length_le_of_standsAt hle (Bool.and_eq_true_iff.mp hboth).1
  simp only [Function.comp_apply, List.length_drop, Span.mk.injEq]
  omega

end Capture

end SourceCensus
