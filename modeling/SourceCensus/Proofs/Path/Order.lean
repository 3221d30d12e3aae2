import SourceCensus.Path

/-!
# The order of names and paths

Names are put in order by `<` on texts, and lists of names component by component: `Before` is the order of
a book's index, in which `src` comes before `src`, `A.java`, and that before `src`, `B`, `C.java`.  It is not
the order of the written paths, because a slash comes behind some characters that a name may have.

`Path.under` puts a list of names behind a path.  What a walk comes upon is described by such lists, as seen
from where the walk started.  They are put together by their first names, the lesser ones in front
(`exists_found_concat`).
-/

set_option autoImplicit false

namespace SourceCensus

/-- Names without repetition are put in a strict order. -/
theorem pairwise_lt_mergeSort {names : List String} (h : names.Nodup) :
    names.mergeSort.Pairwise (· < ·) := by
  have hsorted : names.mergeSort.Pairwise (· ≤ ·) := by
    refine (List.pairwise_mergeSort ?_ ?_ _).imp of_decide_eq_true
    · intro a b c hab hbc
      exact decide_eq_true (String.le_trans (of_decide_eq_true hab) (of_decide_eq_true hbc))
    · intro a b
      simpa using String.le_total a b
  have hnodup : names.mergeSort.Nodup := (List.mergeSort_perm names _).nodup_iff.mpr h
  exact hsorted.imp₂ (fun _ _ hle hne => Std.lt_of_le_of_ne hle hne) hnodup

/-- Of names in a strict order the lesser ones stand in front. -/
theorem mem_iff_lt {done more : List String} {name other : String}
    (h : (done ++ name :: more).Pairwise (· < ·)) (hother : other ∈ done ++ name :: more) :
    other ∈ done ↔ other < name := by
  obtain ⟨-, hmore, hdone⟩ := List.pairwise_append.mp h
  constructor
  · intro hmem
    exact hdone other hmem name List.mem_cons_self
  · intro hlt
    rcases List.mem_append.mp hother with hmem | hmem
    · exact hmem
    · rcases List.mem_cons.mp hmem with rfl | hmem
      · exact absurd hlt (String.lt_irrefl other)
      · exact absurd hlt (String.lt_asymm (List.rel_of_pairwise_cons hmore hmem))

/-- The order of lists of names, component by component. -/
abbrev Before : List String → List String → Prop := List.Lex (· < ·)

theorem Before.irrefl (names : List String) : ¬ Before names names :=
  List.lex_irrefl String.lt_irrefl names

theorem Before.asymm {names names' : List String} (h : Before names names') :
    ¬ Before names' names :=
  List.lex_asymm String.lt_asymm h

theorem Before.nodup {lists : List (List String)} (h : lists.Pairwise Before) : lists.Nodup := by
  refine h.imp ?_
  rintro names _ hbefore rfl
  exact Before.irrefl names hbefore

namespace Path

/-- The path with the names behind it. -/
def under (p : Path) (names : List String) : Path := ⟨p.root, p.parts ++ names⟩

variable (p : Path)

@[simp] theorem under_nil : p.under [] = p := by
  simp [under]

theorem under_singleton (name : String) : p.under [name] = p.child name := rfl

@[simp] theorem child_under (name : String) (names : List String) :
    (p.child name).under names = p.under (name :: names) := by
  simp [under, child]

theorem map_child_under (name : String) (lists : List (List String)) :
    lists.map (p.child name).under = (lists.map (name :: ·)).map p.under := by
  simp [Function.comp_def]

theorem under_injective : Function.Injective p.under := by
  intro names names' h
  simpa [under] using h

/-- Two lists of names behind one path are in the order of the whole. -/
theorem before_under {names names' : List String} (h : Before names names') :
    Before (p.under names).parts (p.under names').parts := by
  unfold under
  induction p.parts with
  | nil => exact h
  | cons part parts ih => exact .cons ih

/-- Behind the lists that begin with a name of `done`, those that begin with a greater name come next. -/
theorem exists_found_concat {C : List String → Prop} {files files' files'' : List Path}
    {done : List String} {name : String} (hlt : ∀ other ∈ done, other < name)
    (hold : ∃ found : List (List String), files' = files ++ found.map p.under ∧
      found.Pairwise Before ∧ ∀ q, q ∈ found ↔ ∃ other ∈ done, ∃ rest, q = other :: rest ∧ C (other :: rest))
    (hnew : ∃ found : List (List String), files'' = files' ++ (found.map (name :: ·)).map p.under ∧
      found.Pairwise Before ∧ ∀ rest, rest ∈ found ↔ C (name :: rest)) :
    ∃ found : List (List String), files'' = files ++ found.map p.under ∧ found.Pairwise Before ∧
      ∀ q, q ∈ found ↔ ∃ other ∈ done ++ [name], ∃ rest, q = other :: rest ∧ C (other :: rest) := by
  obtain ⟨old, holdfiles, holdorder, hold⟩ := hold
  obtain ⟨new, hnewfiles, hneworder, hnew⟩ := hnew
  refine ⟨old ++ new.map (name :: ·), ?_, ?_, fun q => ?_⟩
  · rw [hnewfiles, holdfiles, List.map_append, List.append_assoc]
  · refine List.pairwise_append.mpr ⟨holdorder, ?_, ?_⟩
    · exact List.pairwise_map.mpr (hneworder.imp fun hbefore => .cons hbefore)
    · intro q hq q' hq'
      obtain ⟨other, hother, rest, rfl, -⟩ := (hold q).mp hq
      obtain ⟨rest', -, rfl⟩ := List.mem_map.mp hq'
      exact .rel (hlt other hother)
  · rw [List.mem_append, hold, List.mem_map]
    constructor
    · rintro (⟨other, hother, hrest⟩ | ⟨rest, hrest, rfl⟩)
      · exact ⟨other, List.mem_append_left _ hother, hrest⟩
      · exact ⟨name, List.mem_append_right _ (List.mem_singleton_self name), rest, rfl,
          (hnew rest).mp hrest⟩
    · rintro ⟨other, hother, rest, rfl, hC⟩
      rcases List.mem_append.mp hother with hother | hother
      · exact .inl ⟨other, hother, rest, rfl, hC⟩
      · obtain rfl := List.mem_singleton.mp hother
        exact .inr ⟨rest, (hnew rest).mpr hC, rfl⟩

end Path

end SourceCensus
