import SourceCensus.Proofs.Count.Order
import SourceCensus.Proofs.Line.Lockstep

/-!
# Surveys of joined files

Both scans run along a file from the front, so the survey of two parts is the survey of the first and, from
the regions behind it, that of the second (`ofLinesFrom_append`).  The enhanced count reads little of a
survey: the lines that both scans count, each with whether it can be part of an accessor (`sharedLines`).
Line numbers, and lines that one of the scans leaves out, make no difference to it (`enhanced_congr`).

So a part of a file has no influence on the enhanced count, accessors included, when

> no line of it is counted by both scans, and behind it both are in the region in front of it.

`Unnoticed` is that condition, open at its end so that a part can be put together from smaller ones, and
`enhanced_without` is the sentence.
-/

set_option autoImplicit false

namespace SourceCensus

namespace Survey

variable {m : Markers} {lang : Language} {s s' : Survey}

theorem ofLinesFrom_append (m : Markers) (p q : Region) (xs ys : List (List Char)) :
    ofLinesFrom m p q (xs ++ ys) =
      ofLinesFrom m p q xs ++
        ofLinesFrom m (m.regionAfter false p (xs.map Text.trim))
          (m.regionAfter true q (xs.map Text.trim)) ys := by
  induction xs generalizing p q with
  | nil => rfl
  | cons raw xs ih => simp only [List.cons_append, ofLinesFrom, List.map_cons, Markers.regionAfter, ih]

/-- What a survey says of the line behind the first ones. -/
theorem getElem?_ofLines (m : Markers) (xs : List (List Char)) (raw : List Char) (ys : List (List Char)) :
    (ofLines m (xs ++ raw :: ys))[xs.length]? = some {
      line := Text.trim raw
      plain := m.verdict false (m.regionAfter false .code (xs.map Text.trim)) (Text.trim raw)
      stripping := m.verdict true (m.regionAfter true .code (xs.map Text.trim)) (Text.trim raw) } := by
  rw [ofLines, ofLinesFrom_append, List.getElem?_append_right (Nat.le_of_eq (length_ofLinesFrom ..)),
    length_ofLinesFrom, Nat.sub_self]
  rfl

/-! ## What the enhanced count reads -/

/-- The lines that both scans count, each with whether it can be part of an accessor. -/
def sharedLines (s : Survey) : List (List Char × Bool) :=
  (s.filter Surveyed.shared).map fun e => (e.line, e.isCandidate)

theorem sharedLines_append (s s' : Survey) :
    sharedLines (s ++ s') = s.sharedLines ++ s'.sharedLines := by
  simp [sharedLines]

theorem length_sharedLines (s : Survey) : s.sharedLines.length = s.shared := by
  rw [sharedLines, List.length_map, ← List.countP_eq_length_filter, shared]

theorem map_candidatesFrom (start : Nat) (s : Survey) :
    (candidatesFrom start s).map (·.2) = (s.sharedLines.filter (·.2)).map (·.1) := by
  induction s generalizing start with
  | nil => rfl
  | cons e rest ih =>
    rw [candidatesFrom]
    by_cases hcandidate : e.isCandidate = true
    · have hshared : e.shared = true := by
        rw [Surveyed.isCandidate, Bool.and_eq_true] at hcandidate
        exact hcandidate.1
      simp only [hcandidate, if_true, List.map_cons, ih, sharedLines, List.filter_cons, hshared]
    · rw [Bool.not_eq_true] at hcandidate
      by_cases hshared : e.shared = true
      · simp [hcandidate, ih, sharedLines, hshared]
      · simp [hcandidate, ih, sharedLines, hshared]

/-- Lines that count and are no candidates go into the enhanced count as they are. -/
theorem enhanced_eq_add {k : Nat} (hshared : s.shared = s'.shared + k)
    (hlines : s.candidates.map (·.2) = s'.candidates.map (·.2)) (dropAccessors : Bool) :
    s.enhanced lang dropAccessors = s'.enhanced lang dropAccessors + k := by
  have haccessors : (s.accessorLines lang).length = (s'.accessorLines lang).length :=
    Accessor.length_positionsFrom_congr hlines
  have hle : (s'.accessorLines lang).length ≤ s'.shared := s'.length_accessorLines_le
  cases dropAccessors with
  | false => exact hshared
  | true =>
    change s.shared - (s.accessorLines lang).length = s'.shared - (s'.accessorLines lang).length + k
    omega

/-- Surveys whose shared lines are the same have the same enhanced count. -/
theorem enhanced_congr (h : s.sharedLines = s'.sharedLines) (dropAccessors : Bool) :
    s.enhanced lang dropAccessors = s'.enhanced lang dropAccessors := by
  have hshared : s.shared = s'.shared := by
    rw [← length_sharedLines, ← length_sharedLines, h]
  have hlines : s.candidates.map (·.2) = s'.candidates.map (·.2) := by
    rw [candidates, candidates, map_candidatesFrom, map_candidatesFrom, h]
  exact enhanced_eq_add (k := 0) hshared hlines dropAccessors

/-! ## Parts that do not count -/

/-- With the plain scan in `p` and the stripping one in `q` in front of the lines, they do not count, the
plain scan is back in `p` behind them, and the stripping one is in `q'`. -/
structure Unnoticed (m : Markers) (p q q' : Region) (lines : List (List Char)) : Prop where
  uncounted : (ofLinesFrom m p q lines).sharedLines = []
  plain : m.regionAfter false p (lines.map Text.trim) = p
  stripping : m.regionAfter true q (lines.map Text.trim) = q'

namespace Unnoticed

variable {p q q' q'' : Region} {xs ys : List (List Char)}

theorem line {raw : List Char} (hplain : (m.verdict false p (Text.trim raw)).region = p)
    (hcounted : (m.verdict true q (Text.trim raw)).counted = false)
    (hregion : (m.verdict true q (Text.trim raw)).region = q') : Unnoticed m p q q' [raw] where
  uncounted := by simp [ofLinesFrom, sharedLines, Surveyed.shared, hcounted]
  plain := hplain
  stripping := hregion

theorem append (h : Unnoticed m p q q' xs) (h' : Unnoticed m p q' q'' ys) :
    Unnoticed m p q q'' (xs ++ ys) where
  uncounted := by
    rw [ofLinesFrom_append, sharedLines_append, h.uncounted, h.plain, h.stripping, h'.uncounted]
    rfl
  plain := by rw [List.map_append, Markers.regionAfter_append, h.plain, h'.plain]
  stripping := by rw [List.map_append, Markers.regionAfter_append, h.stripping, h'.stripping]

/-- Lines that each leave the scans where they are. -/
theorem all (h : ∀ raw ∈ xs, Unnoticed m p q q [raw]) : Unnoticed m p q q xs := by
  induction xs with
  | nil => exact ⟨rfl, rfl, rfl⟩
  | cons raw xs ih =>
    rw [List.forall_mem_cons] at h
    exact h.1.append (ih h.2)

end Unnoticed

/-- A part that does not count can be taken out of a file. -/
theorem enhanced_without {xs part ys : List (List Char)}
    (h : Unnoticed m (m.regionAfter false .code (xs.map Text.trim))
      (m.regionAfter true .code (xs.map Text.trim)) (m.regionAfter true .code (xs.map Text.trim)) part)
    (dropAccessors : Bool) :
    (ofLines m (xs ++ part ++ ys)).enhanced lang dropAccessors =
      (ofLines m (xs ++ ys)).enhanced lang dropAccessors := by
  refine enhanced_congr ?_ dropAccessors
  simp only [ofLines, List.append_assoc, ofLinesFrom_append, sharedLines_append, h.uncounted, h.plain,
    h.stripping, List.nil_append]

end Survey

/-! ## The counts of a Java file -/

theorem countLines_java (mode : CountMode) (dropAccessors : Bool) (lines : List (List Char)) :
    countLines .java mode dropAccessors lines = .ok (match mode with
      | .baseline => (Survey.ofLines .java lines).baseline
      | .enhanced => (Survey.ofLines .java lines).enhanced .java dropAccessors) := by
  cases mode <;> rfl

end SourceCensus
