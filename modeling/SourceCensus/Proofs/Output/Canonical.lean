import Mathlib.Data.List.Nodup
import SourceCensus.Proofs.Output.Outcome
import SourceCensus.Proofs.Path.Written

/-!
# One written form for a census

The reports of a census come in the order of the walk, and the walk has the order of the directories.  What
is written must not depend on it.

> The sorted reports are in a strict order by name, then by written path, and a census whose reports and
> shared names were met in another order is written in the same way in every format.

Names repeat, so it is the written path that tells two reports with one name apart; it can do so because no
two paths have one written form (`Path.render_injective`).  Shared names are keys and do not repeat.  The
table is made of its rows and of whether any names are shared, and knows nothing else of the census; what a
console draws of it is left open, so it is the same table that every console is handed.
-/

set_option autoImplicit false

namespace SourceCensus

namespace FileReport

/-- `a` comes before `b` by name, and among reports with one name by written path. -/
def Precedes (a b : FileReport) : Prop :=
  a.name < b.name ∨ a.name = b.name ∧ a.path.render < b.path.render

variable {a b c : FileReport}

theorem atMost_iff :
    a.atMost b = true ↔ a.name < b.name ∨ a.name = b.name ∧ a.path.render ≤ b.path.render := by
  unfold atMost
  split
  · next h =>
    rw [decide_eq_true_iff]
    constructor
    · intro hle
      exact .inr ⟨h, hle⟩
    · rintro (hlt | ⟨-, hle⟩)
      · exact absurd (h ▸ hlt) (String.lt_irrefl _)
      · exact hle
  · next h =>
    rw [decide_eq_true_iff]
    constructor
    · intro hle
      exact .inl (Std.lt_of_le_of_ne hle h)
    · rintro (hlt | ⟨heq, -⟩)
      · exact Std.le_of_lt hlt
      · exact absurd heq h

theorem atMost_trans (hab : a.atMost b = true) (hbc : b.atMost c = true) : a.atMost c = true := by
  rw [atMost_iff] at *
  rcases hab with hab | ⟨hab, hpab⟩ <;> rcases hbc with hbc | ⟨hbc, hpbc⟩
  · exact .inl (String.lt_trans hab hbc)
  · exact .inl (hbc ▸ hab)
  · exact .inl (hab ▸ hbc)
  · exact .inr ⟨hab.trans hbc, String.le_trans hpab hpbc⟩

theorem atMost_total (a b : FileReport) : a.atMost b = true ∨ b.atMost a = true := by
  rw [atMost_iff, atMost_iff]
  by_cases hname : a.name = b.name
  · rcases String.le_total a.path.render b.path.render with h | h
    · exact .inl (.inr ⟨hname, h⟩)
    · exact .inr (.inr ⟨hname.symm, h⟩)
  · rcases String.le_total a.name b.name with h | h
    · exact .inl (.inl (Std.lt_of_le_of_ne h hname))
    · exact .inr (.inl (Std.lt_of_le_of_ne h (Ne.symm hname)))

/-- Reports that come in each other's place have one written path. -/
theorem render_eq_of_atMost (hab : a.atMost b = true) (hba : b.atMost a = true) :
    a.path.render = b.path.render := by
  rw [atMost_iff] at *
  rcases hab with hab | ⟨hab, hpab⟩ <;> rcases hba with hba | ⟨hba, hpba⟩
  · exact absurd hba (String.lt_asymm hab)
  · exact absurd (hba ▸ hab) (String.lt_irrefl _)
  · exact absurd (hab ▸ hba) (String.lt_irrefl _)
  · exact String.le_antisymm hpab hpba

theorem precedes_of_atMost (hab : a.atMost b = true) (hne : a.path.render ≠ b.path.render) :
    a.Precedes b := by
  rcases atMost_iff.mp hab with h | ⟨hname, hle⟩
  · exact .inl h
  · exact .inr ⟨hname, Std.lt_of_le_of_ne hle hne⟩

end FileReport

namespace Census

/-- A census as a run makes it: its reports are on paths, each path has one report, and each shared name
one entry. -/
structure Keyed (c : Census) : Prop where
  lexical : ∀ r ∈ c.reports, r.path.IsLexical
  reports : (c.reports.map (·.path)).Nodup
  collisions : (Assoc.keys c.collisions).Nodup

/-- The same census, with its reports and its shared names met in another order. -/
structure Reordered (c c' : Census) : Prop where
  root : c'.root = c.root
  namespaces : c'.namespaces = c.namespaces
  reports : c'.reports.Perm c.reports
  collisions : c'.collisions.Perm c.collisions

variable {c c' : Census}

/-! ## The order of the reports -/

theorem pairwise_sorted (c : Census) : c.sorted.Pairwise (fun a b => a.atMost b = true) := by
  refine List.pairwise_mergeSort ?_ ?_ _
  · intro a b c hab hbc
    exact FileReport.atMost_trans hab hbc
  · intro a b
    rw [Bool.or_eq_true]
    exact FileReport.atMost_total a b

/-- Different reports have different written paths. -/
theorem Keyed.eq_of_render {a b : FileReport} (h : c.Keyed) (ha : a ∈ c.reports) (hb : b ∈ c.reports)
    (hpath : a.path.render = b.path.render) : a = b :=
  List.inj_on_of_nodup_map h.reports ha hb
    (Path.render_injective (h.lexical a ha) (h.lexical b hb) hpath)

/-- The sorted reports are in a strict order. -/
theorem Keyed.pairwise_precedes (h : c.Keyed) : c.sorted.Pairwise FileReport.Precedes := by
  have hpaths : (c.reports.map (·.path.render)).Nodup := by
    rw [← Function.comp_def Path.render, ← List.map_map, List.nodup_map_iff_inj_on h.reports]
    intro p hp q hq hpq
    obtain ⟨a, ha, rfl⟩ := List.mem_map.mp hp
    obtain ⟨b, hb, rfl⟩ := List.mem_map.mp hq
    exact Path.render_injective (h.lexical a ha) (h.lexical b hb) hpq
  have hsorted : (c.sorted.map (·.path.render)).Nodup :=
    ((List.mergeSort_perm c.reports _).map _).nodup_iff.mpr hpaths
  exact c.pairwise_sorted.imp₂ (fun _ _ => FileReport.precedes_of_atMost) (List.pairwise_map.mp hsorted)

theorem Keyed.sorted_eq (h : c.Keyed) (hperm : c'.reports.Perm c.reports) :
    c'.sorted = c.sorted := by
  have hsorted : c'.sorted.Perm c.sorted :=
    (List.mergeSort_perm _ _).trans (hperm.trans (List.mergeSort_perm _ _).symm)
  refine List.Perm.eq_of_pairwise ?_ c'.pairwise_sorted c.pairwise_sorted hsorted
  intro a b ha hb hab hba
  exact h.eq_of_render (mem_sorted.mp (hsorted.subset ha)) (mem_sorted.mp hb)
    (FileReport.render_eq_of_atMost hab hba)

/-! ## The order of the shared names -/

theorem pairwise_sortedCollisions (c : Census) :
    c.sortedCollisions.Pairwise (fun a b => a.1 ≤ b.1) := by
  refine (List.pairwise_mergeSort ?_ ?_ _).imp of_decide_eq_true
  · intro a b c hab hbc
    exact decide_eq_true (String.le_trans (of_decide_eq_true hab) (of_decide_eq_true hbc))
  · intro a b
    simpa using String.le_total a.1 b.1

/-- Names that do not repeat are put in a strict order. -/
theorem pairwise_lt_sortedCollisions (h : (Assoc.keys c.collisions).Nodup) :
    c.sortedCollisions.Pairwise (fun a b => a.1 < b.1) := by
  have hnames : (c.sortedCollisions.map (·.1)).Nodup :=
    ((List.mergeSort_perm c.collisions _).map _).nodup_iff.mpr h
  exact c.pairwise_sortedCollisions.imp₂ (fun _ _ => Std.lt_of_le_of_ne) (List.pairwise_map.mp hnames)

theorem Keyed.sortedCollisions_eq (h : c.Keyed) (hperm : c'.collisions.Perm c.collisions) :
    c'.sortedCollisions = c.sortedCollisions := by
  have hsorted : c'.sortedCollisions.Perm c.sortedCollisions :=
    (List.mergeSort_perm _ _).trans (hperm.trans (List.mergeSort_perm _ _).symm)
  refine List.Perm.eq_of_pairwise ?_ c'.pairwise_sortedCollisions c.pairwise_sortedCollisions hsorted
  intro a b ha hb hab hba
  exact List.inj_on_of_nodup_map h.collisions (mem_sortedCollisions.mp (hsorted.subset ha))
    (mem_sortedCollisions.mp hb) (String.le_antisymm hab hba)

/-! ## The written forms -/

namespace Reordered

theorem csvRows_eq (hr : c.Reordered c') (h : c.Keyed) : c'.csvRows = c.csvRows := by
  rw [csvRows, csvRows, h.sorted_eq hr.reports, hr.root]

theorem toTable_eq (hr : c.Reordered c') (h : c.Keyed) : c'.toTable = c.toTable := by
  have hshows : c'.showsPaths = c.showsPaths := by
    rw [showsPaths, showsPaths, hr.collisions.isEmpty_eq]
  have hcolumns : c'.tableColumns = c.tableColumns := by
    rw [tableColumns, tableColumns, hshows]
  have hrow : c'.tableRow = c.tableRow := by
    funext r
    rw [tableRow, tableRow, hshows, hr.root]
  rw [toTable, toTable, h.sorted_eq hr.reports, hrow, hcolumns]

theorem toJson_eq (hr : c.Reordered c') (h : c.Keyed) : c'.toJson = c.toJson := by
  have hcollisions : c'.collisionMembers = c.collisionMembers := by
    have hsorted := h.sortedCollisions_eq hr.collisions
    rw [sortedCollisions, sortedCollisions] at hsorted
    rw [collisionMembers, collisionMembers, hsorted, hr.root]
  rw [toJson, toJson, hcollisions, h.sorted_eq hr.reports, hr.root, hr.namespaces]

theorem format_eq (hr : c.Reordered c') (h : c.Keyed) (f : OutputFormat) :
    c'.format f = c.format f := by
  cases f with
  | csv => rw [format, format, hr.csvRows_eq h]
  | json => rw [format, format, hr.toJson_eq h]
  | table console => rw [format, format, hr.toTable_eq h]

end Reordered

theorem exists_format_csv (h : c.ReportsBelow) : ∃ text, c.format .csv = .ok text := by
  rw [format, csvRows_of_below h]
  exact ⟨_, rfl⟩

theorem exists_format_json_iff : (∃ text, c.format .json = .ok text) ↔ c.CollisionsBelow := by
  rw [← exists_toJson_iff]
  simp only [format, map_eq_ok_iff]
  constructor
  · rintro ⟨text, value, hvalue, -⟩
    exact ⟨value, hvalue⟩
  · rintro ⟨value, hvalue⟩
    exact ⟨_, value, hvalue, rfl⟩

/-- One table is handed to every console. -/
theorem exists_table (h : c.ReportsBelow) :
    ∃ table, c.toTable = .ok table ∧
      ∀ console, c.format (.table console) = console.record (recordWidth console) table := by
  obtain ⟨table, htable⟩ := toTable_of_below h
  refine ⟨table, htable, fun console => ?_⟩
  rw [format, htable]
  rfl

/-- The reports are written in a strict order by name, then by path.  There are always rows for CSV and a table
for a console to draw, and JSON if the paths under shared names lie under the root.  A census that differs in
the order in which its reports and its shared names were met makes the same table and is written in the same
way, on whatever console. -/
theorem format_canonical (h : c.Keyed) (hbelow : c.ReportsBelow) :
    (c.sorted.Perm c.reports ∧ c.sorted.Pairwise FileReport.Precedes) ∧
    ((∃ text, c.format .csv = .ok text) ∧
      ((∃ text, c.format .json = .ok text) ↔ c.CollisionsBelow) ∧
      ∃ table, c.toTable = .ok table ∧
        ∀ console, c.format (.table console) = console.record (recordWidth console) table) ∧
    ∀ c', c.Reordered c' →
      c'.sorted = c.sorted ∧ c'.toTable = c.toTable ∧ ∀ f, c'.format f = c.format f := by
  refine ⟨⟨List.mergeSort_perm _ _, h.pairwise_precedes⟩,
    ⟨exists_format_csv hbelow, exists_format_json_iff, exists_table hbelow⟩, ?_⟩
  intro c' hr
  exact ⟨h.sorted_eq hr.reports, hr.toTable_eq h, hr.format_eq h⟩

/-- Two shared names in two directories. -/
def twoNames : Census where
  root := Path.ofString "/src"
  namespaces := ["a", "b"]
  reports := [
    ⟨Path.ofString "/src/b/A.java", .counted 2, none, [], [], [], some "b"⟩,
    ⟨Path.ofString "/src/a/B.java", .failed .notFound, none, ["b"], [], [], some "a"⟩,
    ⟨Path.ofString "/src/a/A.java", .counted 1, some (.counted 0), [], [], [], some "a"⟩,
    ⟨Path.ofString "/src/b/B.java", .counted 3, none, [], [], [], some "b"⟩]
  collisions := [
    ("B.java", [Path.ofString "/src/a/B.java", Path.ofString "/src/b/B.java"]),
    ("A.java", [Path.ofString "/src/b/A.java", Path.ofString "/src/a/A.java"])]

/-- The same names, met the other way round. -/
def twoNamesBackwards : Census :=
  { twoNames with
    reports := twoNames.reports.reverse
    collisions := twoNames.collisions.reverse }

theorem reordered_twoNames : twoNames.Reordered twoNamesBackwards where
  root := rfl
  namespaces := rfl
  reports := List.reverse_perm _
  collisions := List.reverse_perm _

theorem keyed_twoNames : twoNames.Keyed where
  lexical := by
    simp only [twoNames, List.forall_mem_cons, Path.isLexical_ofString, true_and]
    exact List.forall_mem_nil _
  reports := by decide +kernel
  collisions := by decide +kernel

/-- Whichever way round they are met, these reports and shared names are written in the same way. -/
theorem format_canonical_twoNames :
    (twoNames.Keyed ∧ twoNames.ReportsBelow ∧ twoNames.CollisionsBelow) ∧
    twoNames.sorted.Pairwise FileReport.Precedes ∧
    ((∃ text, twoNames.format .csv = .ok text) ∧ (∃ text, twoNames.format .json = .ok text) ∧
      ∃ table, twoNames.toTable = .ok table) ∧
    twoNames.Reordered twoNamesBackwards ∧
    ∀ f, twoNamesBackwards.format f = twoNames.format f := by
  have hbelow : twoNames.ReportsBelow := by decide +kernel
  have hcollisions : twoNames.CollisionsBelow := by decide +kernel
  obtain ⟨⟨-, hsorted⟩, ⟨hcsv, hjson, table, htable, -⟩, hsame⟩ := format_canonical keyed_twoNames hbelow
  refine ⟨⟨keyed_twoNames, hbelow, hcollisions⟩, hsorted,
    ⟨hcsv, hjson.mpr hcollisions, table, htable⟩, reordered_twoNames, ?_⟩
  exact (hsame twoNamesBackwards reordered_twoNames).2.2

end Census

end SourceCensus
