import SourceCensus.Output.Format
import SourceCensus.Proofs.Analysis.Outcome

/-!
# What a census is written as

A census can be written when its paths can be shown as seen from the root.  CSV and the table ask this of
the paths of the reports, JSON of the paths under shared names, and nothing else can go wrong:

> `csvRows_of_below`, `toTable_of_below` and `toJson_of_below` give the rows, the table and the value that
> are written, without the steps that could have failed.

Statements about written forms start from these equations.
-/

set_option autoImplicit false

namespace SourceCensus

theorem mapM_eq_ok_map {ε α β : Type} {f : α → Except ε β} {g : α → β} {l : List α}
    (h : ∀ a ∈ l, f a = .ok (g a)) : l.mapM f = .ok (l.map g) := by
  rw [mapM_eq_ok_iff, List.forall₂_map_right_iff, List.forall₂_same]
  exact h

/-- The path lies under `base`. -/
def Path.IsBelow (p base : Path) : Prop := (p.below? base).isSome = true

instance (p base : Path) : Decidable (p.IsBelow base) := inferInstanceAs (Decidable (_ = true))

namespace Path

variable {p base : Path}

theorem IsBelow.below?_eq (h : p.IsBelow base) : p.below? base = some (p.belowOrSelf base) := by
  obtain ⟨q, hq⟩ := Option.isSome_iff_exists.mp h
  rw [belowOrSelf, hq]
  rfl

theorem relativeTo_of_isBelow (h : p.IsBelow base) : p.relativeTo base = .ok (p.belowOrSelf base) := by
  rw [relativeTo, h.below?_eq]

theorem exists_relativeTo_iff : (∃ q, p.relativeTo base = .ok q) ↔ p.IsBelow base := by
  unfold relativeTo IsBelow
  cases p.below? base <;> simp

end Path

namespace FileReport

/-- The fields of the row of a report. -/
def fields (root : Path) (r : FileReport) : List String :=
  [r.name, (r.path.belowOrSelf root).render, r.sourceLines.render,
    (r.enhancedLines.map LineCount.render).getD "", ";".intercalate r.dependencies]

end FileReport

namespace Census

variable {c : Census}

/-- All paths of reports lie under the root. -/
def ReportsBelow (c : Census) : Prop := ∀ r ∈ c.reports, r.path.IsBelow c.root

/-- All paths under shared names lie under the root. -/
def CollisionsBelow (c : Census) : Prop := ∀ group ∈ c.collisions, ∀ p ∈ group.2, p.IsBelow c.root

instance (c : Census) : Decidable c.ReportsBelow := inferInstanceAs (Decidable (∀ r ∈ c.reports, _))

instance (c : Census) : Decidable c.CollisionsBelow :=
  inferInstanceAs (Decidable (∀ group ∈ c.collisions, ∀ p ∈ group.2, _))

/-- The shared names in order. -/
def sortedCollisions (c : Census) : Assoc String (List Path) :=
  c.collisions.mergeSort fun a b => a.1 ≤ b.1

theorem mem_sorted {r : FileReport} : r ∈ c.sorted ↔ r ∈ c.reports :=
  (List.mergeSort_perm c.reports _).mem_iff

theorem mem_sortedCollisions {group : String × List Path} :
    group ∈ c.sortedCollisions ↔ group ∈ c.collisions :=
  (List.mergeSort_perm c.collisions _).mem_iff

/-! ## Rows -/

theorem csvRows_of_below (h : c.ReportsBelow) :
    c.csvRows = .ok (csvHeader :: c.sorted.map (FileReport.fields c.root)) := by
  have hrow : ∀ r ∈ c.sorted, csvRow c.root r = .ok (r.fields c.root) := by
    intro r hr
    rw [csvRow, Path.relativeTo_of_isBelow (h r (mem_sorted.mp hr))]
    rfl
  rw [csvRows, mapM_eq_ok_map hrow]
  rfl

theorem toTable_of_below (h : c.ReportsBelow) : ∃ table, c.toTable = .ok table := by
  have hrow : ∀ r ∈ c.sorted, ∃ row, c.tableRow r = .ok row := by
    intro r hr
    rw [tableRow, Path.relativeTo_of_isBelow (h r (mem_sorted.mp hr))]
    cases c.showsPaths <;> exact ⟨_, rfl⟩
  obtain ⟨rows, hrows⟩ := exists_mapM_iff.mpr hrow
  rw [toTable, hrows]
  exact ⟨_, rfl⟩

/-! ## The JSON value -/

/-- A shared name with its paths as seen from the root. -/
def seenFrom (root : Path) (group : String × List Path) : String × List String :=
  (group.1, group.2.map fun p => (p.belowOrSelf root).render)

/-- The member of a shared name. -/
def collisionMember (root : Path) (group : String × List Path) : String × Json :=
  (group.1, Json.ofStrings (seenFrom root group).2)

theorem collisionMembers_of_below (h : c.CollisionsBelow) :
    c.collisionMembers = .ok (c.sortedCollisions.map (collisionMember c.root)) := by
  refine mapM_eq_ok_map fun group hgroup => ?_
  have hpaths : group.2.mapM (fun p => p.relativeTo c.root) =
      .ok (group.2.map fun p => p.belowOrSelf c.root) := by
    refine mapM_eq_ok_map fun p hp => ?_
    exact Path.relativeTo_of_isBelow (h group (mem_sortedCollisions.mp hgroup) p hp)
  simp only [hpaths, collisionMember, seenFrom]
  simp [pure, Except.pure, bind, Except.bind, Function.comp_def]

theorem toJson_of_below (h : c.CollisionsBelow) :
    c.toJson = .ok (.object [
      ("root", .string c.root.render),
      ("root_namespaces", Json.ofStrings c.namespaces),
      ("files", .array (c.sorted.map (FileReport.toJson (some c.root)))),
      ("name_collisions", .object (c.sortedCollisions.map (collisionMember c.root)))]) := by
  rw [toJson, collisionMembers_of_below h]
  rfl

/-- JSON can be written only when the paths under shared names lie under the root. -/
theorem exists_toJson_iff : (∃ value, c.toJson = .ok value) ↔ c.CollisionsBelow := by
  constructor
  · rintro ⟨value, hvalue⟩ group hgroup p hp
    rw [toJson] at hvalue
    obtain ⟨members, hmembers, -⟩ := bind_eq_ok_iff.mp hvalue
    obtain ⟨member, -, hmember⟩ :=
      (exists_of_mem_mapM hmembers).1 group (mem_sortedCollisions.mpr hgroup)
    obtain ⟨paths, hpaths, -⟩ := bind_eq_ok_iff.mp hmember
    obtain ⟨q, -, hq⟩ := (exists_of_mem_mapM hpaths).1 p hp
    exact Path.exists_relativeTo_iff.mp ⟨q, hq⟩
  · intro h
    exact ⟨_, toJson_of_below h⟩

end Census

end SourceCensus
