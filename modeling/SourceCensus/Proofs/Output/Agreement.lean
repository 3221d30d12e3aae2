import SourceCensus.Proofs.Output.Canonical
import SourceCensus.Proofs.Output.Rows
import SourceCensus.Proofs.SourceFile.Reading

/-!
# JSON loses nothing and agrees with CSV

CSV and JSON are written by different rules: a missing count is an empty field in the one and `null` in the
other, a list is one text here and an array there, and only JSON says why a count is missing.  Whichever of
them a program reads, it learns the same about a file:

> the JSON form of a census is read as what it was to say, and the element of `files` at any place says the
> same as the row of the CSV form at that place.

Both are lists of the sorted reports, so it is enough to read one report from either form.
-/

set_option autoImplicit false

namespace SourceCensus

/-! ## Reading one value -/

namespace Json

variable {α β : Type}

theorem areWhole_iff {items : List Json} : areWhole items = true ↔ ∀ v ∈ items, v.isWhole = true := by
  induction items with
  | nil => simp [areWhole]
  | cons v items ih => simp [areWhole, ih]

theorem areWholeMembers_iff {members : List (String × Json)} :
    areWholeMembers members = true ↔ ∀ m ∈ members, m.2.isWhole = true := by
  induction members with
  | nil => simp [areWholeMembers]
  | cons m members ih => simp [areWholeMembers, ih]

theorem isWhole_ofStrings (l : List String) : (ofStrings l).isWhole = true := by
  rw [ofStrings, isWhole, areWhole_iff]
  intro v hv
  obtain ⟨s, -, rfl⟩ := List.mem_map.mp hv
  rfl

theorem isWhole_ofString? (s : Option String) : (ofString? s).isWhole = true := by
  cases s <;> rfl

theorem list?_ofStrings (l : List String) : list? string? (ofStrings l) = some l := by
  rw [ofStrings, list?, List.mapM_map]
  simpa using mapM_eq_some_map (f := string? ∘ string) (g := id) (l := l) fun _ _ => rfl

theorem nullable?_ofString? (s : Option String) : nullable? string? (ofString? s) = some s := by
  cases s <;> rfl

theorem nullable?_count (count : Option LineCount) :
    nullable? int? ((count.map fun c => int c.toInt).getD null) = some (count.map LineCount.toInt) := by
  cases count <;> rfl

end Json

/-! ## Reading one report -/

namespace FileReport

variable (root : Path) (r : FileReport)

theorem isWhole_toJson : (r.toJson (some root)).isWhole = true := by
  have hcount : ((r.enhancedLines.map fun c => Json.int c.toInt).getD .null).isWhole = true := by
    cases r.enhancedLines <;> rfl
  simp [toJson, Json.isWhole, Json.areWholeMembers, Json.isWhole_ofStrings, Json.isWhole_ofString?,
    hcount]

theorem row_ofJson?_toJson : FileRow.ofJson? (r.toJson (some root)) = some (r.row root) := by
  have hfile : (r.toJson (some root)).member? Json.string? "file" = some r.name := rfl
  have hpath : (r.toJson (some root)).member? Json.string? "path" =
      some (r.path.belowOrSelf root).render := rfl
  have hsource : (r.toJson (some root)).member? Json.int? "source_lines" =
      some r.sourceLines.toInt := rfl
  have henhanced : (r.toJson (some root)).member? (Json.nullable? Json.int?) "enhanced_lines" =
      some (r.enhancedLines.map LineCount.toInt) := Json.nullable?_count _
  have hdependencies : (r.toJson (some root)).member? (Json.list? Json.string?) "dependencies" =
      some r.dependencies := Json.list?_ofStrings _
  rw [FileRow.ofJson?, hfile, hpath, hsource, henhanced, hdependencies]
  rfl

/-- An element of `files` says what it was to say. -/
theorem entry_ofJson?_toJson : FileEntry.ofJson? (r.toJson (some root)) = some (r.entry root) := by
  have hnamespace : (r.toJson (some root)).member? (Json.nullable? Json.string?) "root_namespace" =
      some r.rootNamespace := Json.nullable?_ofString? _
  have hsource : (r.toJson (some root)).member? (Json.nullable? Json.string?) "source_lines_error" =
      some (r.sourceLines.failure?.map FailureKind.label) := Json.nullable?_ofString? _
  have henhanced :
      (r.toJson (some root)).member? (Json.nullable? Json.string?) "enhanced_lines_error" =
        some ((r.enhancedLines.bind LineCount.failure?).map FailureKind.label) := by
    rw [Option.map_bind]
    exact Json.nullable?_ofString? _
  have hdirect : (r.toJson (some root)).member? (Json.list? Json.string?) "direct_dependencies" =
      some r.direct := Json.list?_ofStrings _
  rw [FileEntry.ofJson?, row_ofJson?_toJson, hnamespace, hsource, henhanced, hdirect]
  rfl

end FileReport

/-- A count that is not negative has a reason only when it stands for one. -/
theorem LineCount.failure?_ne_none_iff {count : LineCount} (h : ∀ n, count = .counted n → 0 ≤ n) :
    count.failure? ≠ none ↔ count.toInt < 0 := by
  cases count with
  | counted n =>
    have hn := h n rfl
    simp only [failure?, toInt, ne_eq, not_true_eq_false, false_iff, Int.not_lt]
    exact hn
  | failed kind => simp [failure?, toInt, FailureKind.sentinel_neg]

namespace Census

variable {c : Census}

/-- The counts that there are, are not negative. -/
def CountsNonnegative (c : Census) : Prop :=
  ∀ r ∈ c.reports, (∀ n, r.sourceLines = .counted n → 0 ≤ n) ∧
    ∀ n, r.enhancedLines = some (.counted n) → 0 ≤ n

/-! ## Reading a census -/

/-- What the JSON form of a census is to say. -/
def document (c : Census) : Document where
  root := c.root.render
  namespaces := c.namespaces
  files := c.sorted.map (FileReport.entry c.root)
  collisions := c.sortedCollisions.map (seenFrom c.root)

theorem isWhole_files : (Json.array (c.sorted.map (FileReport.toJson (some c.root)))).isWhole = true := by
  rw [Json.isWhole, Json.areWhole_iff]
  intro v hv
  obtain ⟨r, -, rfl⟩ := List.mem_map.mp hv
  exact r.isWhole_toJson c.root

theorem isWhole_collisions :
    (Json.object (c.sortedCollisions.map (collisionMember c.root))).isWhole = true := by
  rw [Json.isWhole, Json.areWholeMembers_iff]
  intro m hm
  obtain ⟨group, -, rfl⟩ := List.mem_map.mp hm
  exact Json.isWhole_ofStrings _

theorem list?_files : Json.list? FileEntry.ofJson?
    (.array (c.sorted.map (FileReport.toJson (some c.root)))) =
      some (c.sorted.map (FileReport.entry c.root)) := by
  rw [Json.list?, List.mapM_map]
  exact mapM_eq_some_map fun r _ => r.entry_ofJson?_toJson c.root

theorem members?_collisions : Json.members? (Json.list? Json.string?)
    (.object (c.sortedCollisions.map (collisionMember c.root))) =
      some (c.sortedCollisions.map (seenFrom c.root)) := by
  rw [Json.members?, List.mapM_map]
  refine mapM_eq_some_map fun group _ => ?_
  simp only [Function.comp_apply, collisionMember, Json.list?_ofStrings]
  rfl

/-- The JSON form is read as what it was to say. -/
theorem read?_json (h : c.CollisionsBelow) :
    ∃ text value, c.format .json = .ok text ∧ Json.read? text.toList = some value ∧
      Document.ofJson? value = some c.document := by
  refine ⟨_, _, by rw [format, toJson_of_below h, Except.map], Json.read?_render ?_, ?_⟩
  · simp only [Json.isWhole, Json.areWholeMembers, Json.isWhole_ofStrings, Bool.true_and,
      Bool.and_true]
    exact Bool.and_eq_true_iff.mpr ⟨isWhole_files, isWhole_collisions⟩
  · simp [Document.ofJson?, Json.member?, Assoc.get?, Json.string?, Json.list?_ofStrings,
      list?_files, members?_collisions, document]

/-- The row and the element at one place say the same. -/
theorem row_eq_entry (h : c.DependenciesListed) (i : Nat) :
    (c.sorted.map (FileReport.fields c.root))[i]?.bind FileRow.ofFields? =
      c.document.files[i]?.map FileEntry.toFileRow := by
  simp only [document, List.getElem?_map]
  cases hr : c.sorted[i]? with
  | none => rfl
  | some r =>
    have hmem := mem_sorted.mp (List.mem_of_getElem? hr)
    exact FileRow.ofFields?_fields c.root (h r hmem)

/-- JSON can be written and is read back as all that it was to say, with the shared names in a strict order
and no other paths under them.  So is CSV, and the row at any place says the same as the element of `files`
at that place.  A reason is given exactly where a number is negative. -/
theorem json_agrees_with_csv (hreports : c.ReportsBelow) (hcollisions : c.CollisionsBelow)
    (hkeys : (Assoc.keys c.collisions).Nodup) (hdependencies : c.DependenciesListed)
    (hcounts : c.CountsNonnegative) :
    ∃ (json : String) (value : Json) (csv : String) (rows : List (List String)),
      (c.format .json = .ok json ∧ Json.read? json.toList = some value ∧
        Document.ofJson? value = some c.document) ∧
      (c.document.collisions.Perm (c.collisions.map (seenFrom c.root)) ∧
        c.document.collisions.Pairwise fun a b => a.1 < b.1) ∧
      (c.format .csv = .ok csv ∧ Csv.read? csv.toList = some (csvHeader :: rows)) ∧
      (rows.length = c.document.files.length ∧
        ∀ i : Nat, rows[i]?.bind FileRow.ofFields? = c.document.files[i]?.map FileEntry.toFileRow) ∧
      ∀ entry ∈ c.document.files,
        (entry.sourceError ≠ none ↔ entry.sourceLines < 0) ∧
        (entry.enhancedError ≠ none ↔ ∃ n, entry.enhancedLines = some n ∧ n < 0) := by
  obtain ⟨json, value, hjson, hvalue, hdocument⟩ := read?_json hcollisions
  obtain ⟨csv, hcsv, hrows⟩ := read?_csv hreports
  refine ⟨json, value, csv, _, ⟨hjson, hvalue, hdocument⟩, ⟨?_, ?_⟩, ⟨hcsv, hrows⟩,
    ⟨by simp [document], row_eq_entry hdependencies⟩, ?_⟩
  · exact (List.mergeSort_perm c.collisions _).map _
  · exact List.pairwise_map.mpr (pairwise_lt_sortedCollisions hkeys)
  · intro entry hentry
    obtain ⟨r, hr, rfl⟩ := List.mem_map.mp hentry
    obtain ⟨hsource, henhanced⟩ := hcounts r (mem_sorted.mp hr)
    constructor
    · simpa [FileReport.entry, FileReport.row] using LineCount.failure?_ne_none_iff hsource
    · cases hcount : r.enhancedLines with
      | none => simp [FileReport.entry, FileReport.row, hcount]
      | some count =>
        have hiff := LineCount.failure?_ne_none_iff fun n hn => henhanced n (hn ▸ hcount)
        simpa [FileReport.entry, FileReport.row, hcount] using hiff

/-- A shared name with all kinds of escapes in it. -/
def escapedNames : Census where
  root := Path.ofString "/src"
  namespaces := ["a", "é\x7f"]
  reports := [
    ⟨Path.ofString "/src/a/😀\\\"\t\x01.java", .counted 12, some (.failed .readFailure),
      ["a", "é\x7f"], ["é\x7f"], ["é.X"], some "a"⟩,
    ⟨Path.ofString "/src/b/😀\\\"\t\x01.java", .failed .notAccessible, none, [], [], [], some "b"⟩]
  collisions := [("😀\\\"\t\x01.java",
    [Path.ofString "/src/a/😀\\\"\t\x01.java", Path.ofString "/src/b/😀\\\"\t\x01.java"])]

theorem countsNonnegative_escapedNames : escapedNames.CountsNonnegative := by
  intro r hr
  simp only [escapedNames, List.mem_cons, List.not_mem_nil, or_false] at hr
  rcases hr with rfl | rfl <;> simp

/-- Such names are read back from either form. -/
theorem json_agrees_with_csv_escapedNames :
    (escapedNames.ReportsBelow ∧ escapedNames.CollisionsBelow ∧
      (Assoc.keys escapedNames.collisions).Nodup ∧ escapedNames.DependenciesListed ∧
      escapedNames.CountsNonnegative) ∧
    ∃ (json : String) (value : Json) (csv : String) (rows : List (List String)),
      (escapedNames.format .json = .ok json ∧ Json.read? json.toList = some value ∧
        Document.ofJson? value = some escapedNames.document) ∧
      (escapedNames.format .csv = .ok csv ∧ Csv.read? csv.toList = some (csvHeader :: rows)) ∧
      ∀ i : Nat, rows[i]?.bind FileRow.ofFields? =
        escapedNames.document.files[i]?.map FileEntry.toFileRow := by
  have hreports : escapedNames.ReportsBelow := by decide +kernel
  have hcollisions : escapedNames.CollisionsBelow := by decide +kernel
  have hkeys : (Assoc.keys escapedNames.collisions).Nodup := by decide +kernel
  have hdependencies : escapedNames.DependenciesListed := by decide +kernel
  obtain ⟨json, value, csv, rows, hjson, -, hcsv, ⟨-, hsame⟩, -⟩ :=
    json_agrees_with_csv hreports hcollisions hkeys hdependencies countsNonnegative_escapedNames
  exact ⟨⟨hreports, hcollisions, hkeys, hdependencies, countsNonnegative_escapedNames⟩,
    json, value, csv, rows, hjson, hcsv, hsame⟩

end Census

end SourceCensus
