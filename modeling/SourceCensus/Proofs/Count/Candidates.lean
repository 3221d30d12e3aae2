import SourceCensus.Count

/-!
# The candidates of a survey

Accessors are looked for among the candidates: the lines that both scans count and that the stripping scan
does not see as part of a text block.  The search gets them as a list, with their line numbers, and sees
nothing else of the file.  This file says what that list is: it holds exactly the lines that are candidates
(`mem_candidates`), in ascending order (`pairwise_candidates`), and so two candidates that are neighbours in
the list have no other candidate between them in the file (`eq_of_between`).
-/

set_option autoImplicit false

namespace SourceCensus.Survey

open Accessor (Candidate)

theorem mem_candidatesFrom {start : Nat} {s : Survey} {c : Candidate} :
    c ∈ candidatesFrom start s ↔
      ∃ i e, s[i]? = some e ∧ e.isCandidate = true ∧ c = (start + i, e.line) := by
  induction s generalizing start with
  | nil => simp [candidatesFrom]
  | cons e rest ih =>
    have hrest : c ∈ candidatesFrom (start + 1) rest ↔
        ∃ i e', rest[i]? = some e' ∧ e'.isCandidate = true ∧ c = (start + (i + 1), e'.line) := by
      simp only [ih, Nat.add_assoc, Nat.add_comm 1]
    rw [candidatesFrom]
    split
    · next he =>
      rw [List.mem_cons, hrest]
      constructor
      · rintro (rfl | ⟨i, h⟩)
        · exact ⟨0, e, rfl, he, rfl⟩
        · exact ⟨i + 1, h⟩
      · rintro ⟨i, e', hi, he', rfl⟩
        cases i with
        | zero => exact Or.inl (by rw [← Option.some.inj hi, Nat.add_zero])
        | succ i => exact Or.inr ⟨i, e', hi, he', rfl⟩
    · next he =>
      rw [hrest]
      constructor
      · rintro ⟨i, h⟩
        exact ⟨i + 1, h⟩
      · rintro ⟨i, e', hi, he', rfl⟩
        cases i with
        | zero => exact absurd (Option.some.inj hi ▸ he') he
        | succ i => exact ⟨i, e', hi, he', rfl⟩

/-- The candidates are the lines that can be part of an accessor, each with its number. -/
theorem mem_candidates {s : Survey} {c : Candidate} :
    c ∈ s.candidates ↔ ∃ e, s[c.1]? = some e ∧ e.isCandidate = true ∧ c.2 = e.line := by
  simp only [candidates, mem_candidatesFrom, Nat.zero_add]
  constructor
  · rintro ⟨i, e, hi, he, rfl⟩
    exact ⟨e, hi, he, rfl⟩
  · rintro ⟨e, hi, he, hline⟩
    exact ⟨c.1, e, hi, he, Prod.ext rfl hline⟩

theorem pairwise_candidatesFrom (start : Nat) (s : Survey) :
    (candidatesFrom start s).Pairwise (·.1 < ·.1) := by
  induction s generalizing start with
  | nil => exact List.Pairwise.nil
  | cons e rest ih =>
    rw [candidatesFrom]
    split
    · refine List.pairwise_cons.mpr ⟨fun c hc => ?_, ih (start + 1)⟩
      obtain ⟨i, e', -, -, rfl⟩ := mem_candidatesFrom.mp hc
      show start < start + 1 + i
      omega
    · exact ih (start + 1)

theorem pairwise_candidates (s : Survey) : s.candidates.Pairwise (·.1 < ·.1) :=
  pairwise_candidatesFrom 0 s

theorem length_candidatesFrom (start : Nat) (s : Survey) :
    (candidatesFrom start s).length = s.countP Surveyed.isCandidate := by
  induction s generalizing start with
  | nil => rfl
  | cons e rest ih =>
    rw [candidatesFrom, List.countP_cons]
    split <;> simp [ih]

theorem length_candidates (s : Survey) : s.candidates.length = s.countP Surveyed.isCandidate :=
  length_candidatesFrom 0 s

/-- The numbers of the candidates, each with its line, are the candidates again. -/
theorem mapM_candidates (s : Survey) :
    ((s.candidates.map (·.1)).mapM fun i => ((s.map (·.line))[i]?).map fun line => (i, line)) =
      some s.candidates := by
  have hlook : ∀ c ∈ s.candidates, (s.map (·.line))[c.1]? = some c.2 := by
    intro c hc
    obtain ⟨e, he, -, hline⟩ := mem_candidates.mp hc
    rw [List.getElem?_map, he, Option.map_some, hline]
  generalize s.candidates = candidates at hlook
  induction candidates with
  | nil => rfl
  | cons c rest ih =>
    have hrest := ih fun c' hc' => hlook c' (List.mem_cons_of_mem _ hc')
    rw [List.map_cons, List.mapM_cons, hlook c List.mem_cons_self, hrest]
    rfl

/-- Of three candidates in a row, only the middle one lies between the outer ones. -/
theorem eq_of_between {s : Survey} {x y z c : Candidate} (h : [x, y, z] <:+: s.candidates)
    (hc : c ∈ s.candidates) (hx : x.1 < c.1) (hz : c.1 < z.1) : c = y := by
  obtain ⟨before, behind, heq⟩ := h
  -- What comes before the row lies below `x`, what comes behind it lies above `z`.
  have hsorted := s.pairwise_candidates
  rw [← heq] at hc hsorted
  obtain ⟨hfront, -, hbehind⟩ := List.pairwise_append.mp hsorted
  obtain ⟨-, -, hbefore⟩ := List.pairwise_append.mp hfront
  rcases List.mem_append.mp hc with hc | hc
  · rcases List.mem_append.mp hc with hc | hc
    · have hlt := hbefore c hc x (by simp)
      omega
    · rcases List.mem_cons.mp hc with rfl | hc
      · exact absurd hx (Nat.lt_irrefl _)
      · rcases List.mem_cons.mp hc with rfl | hc
        · rfl
        · obtain rfl := List.mem_singleton.mp hc
          exact absurd hz (Nat.lt_irrefl _)
  · have hlt := hbehind z (by simp) c hc
    omega

theorem parts_ascend {s : Survey} {x y z : Candidate} (h : [x, y, z] <:+: s.candidates) :
    x.1 < y.1 ∧ y.1 < z.1 := by
  have hsorted := s.pairwise_candidates.sublist h.sublist
  simp only [List.pairwise_cons, List.mem_cons] at hsorted
  exact ⟨hsorted.1 y (Or.inl rfl), hsorted.2.1 z (Or.inl rfl)⟩

end SourceCensus.Survey
