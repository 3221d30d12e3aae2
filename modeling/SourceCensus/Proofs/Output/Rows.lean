import SourceCensus.Output.Record
import SourceCensus.Proofs.Csv.Reading
import SourceCensus.Proofs.Json.Reading
import SourceCensus.Proofs.Output.Outcome
import SourceCensus.Proofs.Path.Written

/-!
# CSV loses nothing

A row of the CSV form has five fields, and one of them holds a list.  Both are texts with separators, one
inside the other, and names of files may hold any of the separators:

> the CSV form of a census is read as the header and one row for each report in sorted order, and each row
> says what it was to say.

Quoting takes care of the outer separators (`Csv.read?_render`).  The inner one is not quoted.  The list can
be read back because its items are names of namespaces, which are not empty and have no semicolon; an empty
item could not be told from an empty list.
-/

set_option autoImplicit false

namespace SourceCensus

namespace FileRow

/-- The text can be an item of a list with semicolons between its items. -/
def IsItem (s : String) : Prop := s ≠ "" ∧ ';' ∉ s.toList

instance (s : String) : Decidable (IsItem s) := inferInstanceAs (Decidable (_ ∧ _))

/-- A list of items is read back. -/
theorem readList_intercalate {items : List String} (h : ∀ item ∈ items, IsItem item) :
    readList (";".intercalate items) = items := by
  cases items with
  | nil => rfl
  | cons item items =>
    have hjoined : (";".intercalate (item :: items)).toList =
        [';'].intercalate ((item :: items).map String.toList) := String.toList_intercalate
    have hsplit : (";".intercalate (item :: items)).toList.splitOn ';' =
        (item :: items).map String.toList := by
      rw [hjoined]
      refine List.splitOn_intercalate ';' ?_ (by simp)
      rintro _ hmem
      obtain ⟨item', hitem', rfl⟩ := List.mem_map.mp hmem
      exact (h item' hitem').2
    have hnonempty : (";".intercalate (item :: items)).isEmpty = false := by
      have hitem : item.toList ≠ [] := by
        simpa [String.toList_eq_nil_iff] using (h item List.mem_cons_self).1
      rw [Bool.eq_false_iff, Ne, String.isEmpty_iff, ← String.toList_eq_nil_iff, hjoined]
      cases items <;> simp [List.intercalate_cons_cons, hitem]
    rw [readList, hnonempty, hsplit]
    simp [Function.comp_def]

theorem readInt?_render (count : LineCount) : readInt? count.render = some count.toInt := by
  have hread := Json.readNumber?_toString count.toInt Json.endsNumber_nil
  rw [List.append_nil] at hread
  simp only [readInt?, LineCount.render, hread]

theorem readCount?_render (count : Option LineCount) :
    readCount? ((count.map LineCount.render).getD "") = some (count.map LineCount.toInt) := by
  cases count with
  | none => rfl
  | some count =>
    have hread := readInt?_render count
    have hnonempty : count.render.isEmpty = false := by
      obtain ⟨d, digits, htext, -⟩ := Json.exists_toString_eq_cons count.toInt
      rw [Bool.eq_false_iff, Ne, String.isEmpty_iff, ← String.toList_eq_nil_iff, LineCount.render,
        htext]
      simp
    simp [readCount?, hnonempty, hread]

/-- The fields of a row say what the report is to say. -/
theorem ofFields?_fields (root : Path) {r : FileReport}
    (hdependencies : ∀ d ∈ r.dependencies, IsItem d) :
    ofFields? (r.fields root) = some (r.row root) := by
  simp only [FileReport.fields, ofFields?, readInt?_render, readCount?_render,
    readList_intercalate hdependencies]
  rfl

end FileRow

theorem mapM_eq_some_map {α β : Type} {f : α → Option β} {g : α → β} {l : List α}
    (h : ∀ a ∈ l, f a = some (g a)) : l.mapM f = some (l.map g) := by
  induction l with
  | nil => rfl
  | cons a l ih =>
    rw [List.mapM_cons, h a List.mem_cons_self, ih fun a' ha' => h a' (List.mem_cons_of_mem _ ha')]
    rfl

namespace Census

variable {c : Census}

/-- The dependencies of all reports can be items of a list. -/
def DependenciesListed (c : Census) : Prop :=
  ∀ r ∈ c.reports, ∀ d ∈ r.dependencies, FileRow.IsItem d

instance (c : Census) : Decidable c.DependenciesListed :=
  inferInstanceAs (Decidable (∀ r ∈ c.reports, ∀ d ∈ r.dependencies, _))

/-- The CSV form is read as the header and a row for each report. -/
theorem read?_csv (h : c.ReportsBelow) :
    ∃ text, c.format .csv = .ok text ∧
      Csv.read? text.toList = some (csvHeader :: c.sorted.map (FileReport.fields c.root)) := by
  refine ⟨_, by rw [format, csvRows_of_below h, Except.map], Csv.read?_render ?_⟩
  intro row hrow
  rcases List.mem_cons.mp hrow with rfl | hrow
  · simp [csvHeader]
  · obtain ⟨r, -, rfl⟩ := List.mem_map.mp hrow
    simp [FileReport.fields]

theorem mapM_ofFields? (h : c.DependenciesListed) :
    (c.sorted.map (FileReport.fields c.root)).mapM FileRow.ofFields? =
      some (c.sorted.map (FileReport.row c.root)) := by
  rw [List.mapM_map]
  exact mapM_eq_some_map fun r hr => FileRow.ofFields?_fields c.root (h r (mem_sorted.mp hr))

/-- CSV can be written, and is read back as the header and one row of five fields for each report in sorted
order.  Each row says the name, the path, the counts and the dependencies of its report, and the path leads
from the root to the file. -/
theorem csv_lossless (hlexical : ∀ r ∈ c.reports, r.path.IsLexical) (hbelow : c.ReportsBelow)
    (hdependencies : c.DependenciesListed) :
    ∃ text rows, c.format .csv = .ok text ∧ Csv.read? text.toList = some (csvHeader :: rows) ∧
      rows.length = c.reports.length ∧ (∀ row ∈ rows, row.length = 5) ∧
      rows.mapM FileRow.ofFields? = some (c.sorted.map (FileReport.row c.root)) ∧
      ∀ r ∈ c.sorted, c.root.join (r.row c.root).path = r.path := by
  obtain ⟨text, htext, hread⟩ := read?_csv hbelow
  refine ⟨text, _, htext, hread, ?_, ?_, mapM_ofFields? hdependencies, ?_⟩
  · rw [List.length_map]
    exact (List.mergeSort_perm c.reports _).length_eq
  · intro row hrow
    obtain ⟨r, -, rfl⟩ := List.mem_map.mp hrow
    rfl
  · intro r hr
    have hr' := mem_sorted.mp hr
    exact Path.join_render_of_below? (hlexical r hr') (hbelow r hr').below?_eq

/-- Names with every separator in them. -/
def oddNames : Census where
  root := Path.ofString "/src"
  namespaces := ["a,b", "c\"d"]
  reports := [
    ⟨Path.ofString "/src/a,b/x;\"y\"\r\n.java", .counted 12, some (.failed .readFailure),
      ["c\"d", "a,b", "\n"], [], [], some "a,b"⟩,
    ⟨Path.ofString "/src/\r", .failed .notAccessible, none, [], [], [], none⟩]
  collisions := []

/-- Such names are read back. -/
theorem csv_lossless_oddNames :
    (oddNames.ReportsBelow ∧ oddNames.DependenciesListed) ∧
    ∃ text rows, oddNames.format .csv = .ok text ∧
      Csv.read? text.toList = some (csvHeader :: rows) ∧ rows.length = 2 ∧
      rows.mapM FileRow.ofFields? = some (oddNames.sorted.map (FileReport.row oddNames.root)) := by
  have hlexical : ∀ r ∈ oddNames.reports, r.path.IsLexical := by
    simp only [oddNames, List.forall_mem_cons, Path.isLexical_ofString, true_and]
    exact List.forall_mem_nil _
  have hbelow : oddNames.ReportsBelow := by decide +kernel
  have hdependencies : oddNames.DependenciesListed := by decide +kernel
  obtain ⟨text, rows, htext, hread, hlength, -, hrows, -⟩ :=
    csv_lossless hlexical hbelow hdependencies
  exact ⟨⟨hbelow, hdependencies⟩, text, rows, htext, hread, hlength, hrows⟩

end Census

end SourceCensus
