import Mathlib.Order.Bounds.Defs
import SourceCensus.Proofs.Graph.Construction

/-!
# When looking for namespaces stops

`Resolution.ofImports` goes through the imports of a file and stops early, when it has found as many
namespaces as there are.  `mem_ofImports` says that this loses none.  This file says when it happens:

> where no namespace is listed twice, the imports looked at are the shortest beginning of the list that has
> one under each namespace (`ofImports_exact`).

Two numbers are compared, and the argument is about what their equality means.  The namespaces found have no
repetition, so without a repetition among the namespaces themselves both lists are equally long exactly when
nothing is missing (`Partial.length_eq_iff`).  One import can lie under several namespaces, as `a.b.C` does
under `a` and `a.b`, so the number found can rise by more than one at a time and still cannot jump past the
end.

The imports behind the one that completed the namespaces are not looked at: they can be exchanged for any
others (`ofImportsFrom_take_append`).
-/

set_option autoImplicit false

namespace SourceCensus.Resolution

/-- Each of the namespaces is one of the names, or one of them goes on behind it with a dot. -/
def Covers (namespaces names : List String) : Prop :=
  ∀ ns ∈ namespaces, ∃ name ∈ names, name = ns ∨ ∃ rest : String, name = ns ++ "." ++ rest

/-- Each of the namespaces was found already or has one of the names under it. -/
def Completes (namespaces found names : List String) : Prop :=
  ∀ ns ∈ namespaces, ns ∈ found ∨ ∃ name ∈ names, Dotted.isUnder name ns = true

variable {namespaces found names : List String} {name : String}

theorem completes_nil_iff_covers : Completes namespaces [] names ↔ Covers namespaces names := by
  simp only [Completes, Covers, List.not_mem_nil, false_or, Dotted.isUnder_iff]

/-! ## One import -/

/-- Noting an import leaves the same to be found among the others. -/
theorem completes_note_iff :
    Completes namespaces (note namespaces name found) names ↔ Completes namespaces found (name :: names) := by
  refine forall₂_congr fun ns hns => ?_
  rw [mem_note, and_iff_right hns, or_assoc]
  simp only [List.mem_cons, exists_eq_or_imp]

theorem Partial.length_eq_iff (h : Partial namespaces found) (hdistinct : namespaces.Nodup) :
    found.length = namespaces.length ↔ Completes namespaces found [] := by
  constructor
  · intro hlength ns hns
    exact Or.inl (h.mem_of_length_eq hlength hns)
  · intro hall
    have hsubset : namespaces ⊆ found := fun ns hns =>
      (hall ns hns).resolve_right fun ⟨_, hnone, _⟩ => List.not_mem_nil hnone
    exact Nat.le_antisymm (List.subperm_of_subset h.nodup h.subset).length_le
      (List.subperm_of_subset hdistinct hsubset).length_le

/-! ## All imports -/

theorem isLeast_succ {p : Nat → Prop} {n : Nat} (hzero : ¬ p 0) (h : IsLeast {k | p (k + 1)} n) :
    IsLeast {k | p k} (n + 1) := by
  refine ⟨h.1, fun k hk => ?_⟩
  cases k with
  | zero => exact absurd hk hzero
  | succ k => exact Nat.succ_le_succ (h.2 hk)

/-- While something is missing, imports are looked at up to the first one behind which nothing is. -/
theorem consumed_ofImportsFrom (hdistinct : namespaces.Nodup) (h : Partial namespaces found)
    (hmissing : ¬ Completes namespaces found []) (names : List String) :
    (Completes namespaces found names →
      IsLeast {k | Completes namespaces found (names.take k)} (ofImportsFrom namespaces found names).consumed) ∧
    (¬ Completes namespaces found names → (ofImportsFrom namespaces found names).consumed = names.length) := by
  induction names generalizing found with
  | nil => exact ⟨fun hall => absurd hall hmissing, fun _ => rfl⟩
  | cons name names ih =>
    have hnote : Partial namespaces (note namespaces name found) := h.note name
    rw [ofImportsFrom, ← completes_note_iff]
    split
    · next hlength =>
      have hall : Completes namespaces (note namespaces name found) [] :=
        (hnote.length_eq_iff hdistinct).mp hlength
      refine ⟨fun _ => isLeast_succ hmissing ⟨?_, fun k _ => Nat.zero_le k⟩, fun hsome => ?_⟩
      · exact completes_note_iff.mp hall
      · exact absurd (fun ns hns => Or.inl ((hall ns hns).resolve_right (by simp))) hsome
    · next hlength =>
      obtain ⟨hleast, hwhole⟩ := ih hnote (mt (hnote.length_eq_iff hdistinct).mpr hlength)
      refine ⟨fun hall => isLeast_succ hmissing ?_, fun hsome => ?_⟩
      · simpa only [List.take_succ_cons, completes_note_iff] using hleast hall
      · simp only [hwhole hsome, List.length_cons]

/-- What comes behind the last import looked at is of no account, if that one completed the namespaces. -/
theorem ofImportsFrom_take_append (hdistinct : namespaces.Nodup) (h : Partial namespaces found)
    (hall : Completes namespaces found names) (hmissing : ¬ Completes namespaces found [])
    (more : List String) :
    ofImportsFrom namespaces found
        (names.take (ofImportsFrom namespaces found names).consumed ++ more) =
      ofImportsFrom namespaces found names := by
  induction names generalizing found with
  | nil => exact absurd hall hmissing
  | cons name names ih =>
    have hnote : Partial namespaces (note namespaces name found) := h.note name
    rw [ofImportsFrom]
    split
    · next hlength => simp only [List.take_succ_cons, List.cons_append, ofImportsFrom, if_pos hlength]
    · next hlength =>
      have hrest := ih hnote (completes_note_iff.mpr hall) (mt (hnote.length_eq_iff hdistinct).mpr hlength)
      simp only [List.take_succ_cons, List.cons_append, ofImportsFrom, if_neg hlength, hrest]

/-- The namespaces found are those that an import lies under.  Where none of them is listed twice, the
imports looked at are the shortest beginning that has one under each namespace, and what comes behind it
makes no difference; without such a beginning all are looked at, and without namespaces none. -/
theorem ofImports_exact (namespaces imports : List String) :
    let resolution := ofImports namespaces imports
    (resolution.found.Nodup ∧ ∀ ns, ns ∈ resolution.found ↔ ns ∈ namespaces ∧
      ∃ name ∈ imports, name = ns ∨ ∃ rest : String, name = ns ++ "." ++ rest) ∧
    (namespaces = [] → resolution.consumed = 0) ∧
    (namespaces.Nodup → namespaces ≠ [] →
      ((∃ k, Covers namespaces (imports.take k)) →
        IsLeast {k | Covers namespaces (imports.take k)} resolution.consumed ∧
        ∀ more, ofImports namespaces (imports.take resolution.consumed ++ more) = resolution) ∧
      ((∀ k, ¬ Covers namespaces (imports.take k)) → resolution.consumed = imports.length)) := by
  intro resolution
  refine ⟨⟨nodup_ofImports, fun ns => ?_⟩, ?_, fun hdistinct hsome => ?_⟩
  · simpa only [Dotted.isUnder_iff] using mem_ofImports
  · rintro rfl
    rfl
  · have hopen (names : List String) : ofImports namespaces names = ofImportsFrom namespaces [] names := by
      rw [ofImports, if_neg (by simpa using hsome)]
    have hmissing : ¬ Completes namespaces [] [] := by
      obtain ⟨ns, hns⟩ := List.exists_mem_of_ne_nil namespaces hsome
      exact fun hall => by simpa using hall ns hns
    have hconsumed := consumed_ofImportsFrom hdistinct Partial.empty hmissing imports
    simp only [resolution, hopen, ← completes_nil_iff_covers]
    refine ⟨?_, fun hnone => hconsumed.2 (by simpa using hnone imports.length)⟩
    rintro ⟨k, hk⟩
    have hall : Completes namespaces [] imports := fun ns hns => by
      rcases hk ns hns with hfound | ⟨name, hname, hunder⟩
      · exact Or.inl hfound
      · exact Or.inr ⟨name, List.mem_of_mem_take hname, hunder⟩
    exact ⟨hconsumed.1 hall, ofImportsFrom_take_append hdistinct Partial.empty hall hmissing⟩

/-- One import lies under two of the three namespaces, and the last one is not looked at. -/
theorem ofImports_exact_nested :
    let namespaces := ["a", "a.b", "c"]
    let imports := ["ab.D", "a.b.C", "c.E", "a.F"]
    (namespaces.Nodup ∧ namespaces ≠ [] ∧ Covers namespaces (imports.take 3)) ∧
      IsLeast {k | Covers namespaces (imports.take k)} (ofImports namespaces imports).consumed ∧
      (ofImports namespaces imports).consumed = 3 := by
  intro namespaces imports
  have hdistinct : namespaces.Nodup := by decide
  have hsome : namespaces ≠ [] := List.cons_ne_nil _ _
  have hcovers : Covers namespaces (imports.take 3) := by
    rw [← completes_nil_iff_covers]
    unfold Completes
    decide
  have hleast := (((ofImports_exact namespaces imports).2.2 hdistinct hsome).1 ⟨3, hcovers⟩).1
  exact ⟨⟨hdistinct, hsome, hcovers⟩, hleast, by decide +kernel⟩

end SourceCensus.Resolution
