import SourceCensus.Output.Csv

/-!
# Comma-separated values read back

What is written as rows is read as the same rows, whatever characters the fields hold:

> `read? (render rows).toList = some rows`, for rows with at least one field each (`Csv.read?_render`).

A field is read without looking at what it was meant to be, so each lemma carries the text that follows.
That text begins with a comma or a carriage return, and both end a field: a plain field, because it would
have been quoted if it held one, and a quoted field, because its closing quote is not doubled by either.
The row of one empty field is the one whose fields alone would write nothing; its two quotes are read as
that field.
-/

set_option autoImplicit false

namespace SourceCensus.Csv

/-- The text begins with what may stand behind a field. -/
def EndsField (rest : List Char) : Prop := rest.head? = some ',' ∨ rest.head? = some '\r'

theorem endsField_comma (rest : List Char) : EndsField (',' :: rest) := .inl rfl

theorem endsField_lineBreak (rest : List Char) : EndsField ('\r' :: '\n' :: rest) := .inr rfl

theorem EndsField.exists_eq_cons {rest : List Char} (h : EndsField rest) :
    ∃ c tail, rest = c :: tail ∧ isSpecial c = true ∧ c ≠ '"' := by
  cases rest with
  | nil => rcases h with h | h <;> cases h
  | cons c tail =>
    refine ⟨c, tail, rfl, ?_⟩
    rcases h with h | h <;> cases h <;> decide

/-! ## One field -/

theorem readQuoted?_doubled (s : List Char) {rest : List Char} (h : EndsField rest) :
    readQuoted? (doubled s ++ '"' :: rest) = some (s, rest) := by
  induction s with
  | nil =>
    obtain ⟨c, tail, rfl, -, hc⟩ := h.exists_eq_cons
    simp [doubled, readQuoted?, hc]
  | cons c s ih =>
    by_cases hc : c = '"'
    · simp [doubled, readQuoted?, hc, ih]
    · simp [doubled, readQuoted?, hc, ih]

theorem readField?_plain {s rest : List Char} (hs : s.any isSpecial = false) (h : EndsField rest) :
    readField? (s ++ rest) = some (s, rest) := by
  have hplain : ∀ c ∈ s, (!isSpecial c) = true := by simpa using hs
  obtain ⟨c, tail, rfl, hspecial, hc⟩ := h.exists_eq_cons
  have hquote : ∀ t, s ++ c :: tail ≠ '"' :: t := by
    intro t ht
    cases s with
    | nil => exact hc (List.cons.inj ht).1
    | cons d s =>
      obtain rfl : d = '"' := (List.cons.inj ht).1
      exact absurd (hplain '"' List.mem_cons_self) (by decide)
  have hread : readField? (s ++ c :: tail) =
      some ((s ++ c :: tail).takeWhile (!isSpecial ·), (s ++ c :: tail).dropWhile (!isSpecial ·)) := by
    unfold readField?
    split
    · next t ht => exact absurd ht (hquote t)
    · rfl
  rw [hread, List.takeWhile_append_of_pos hplain, List.dropWhile_append_of_pos hplain]
  simp [hspecial]

/-- A written field is read back, and the text behind it is left. -/
theorem readField?_renderField (s : List Char) {rest : List Char} (h : EndsField rest) :
    readField? (renderField s ++ rest) = some (s, rest) := by
  unfold renderField
  split
  · simp only [List.cons_append, List.append_assoc, List.nil_append]
    exact readQuoted?_doubled s h
  · next hs => exact readField?_plain (by simpa using hs) h

/-! ## One row -/

/-- The rows behind a row of which `row` was read. -/
def behindRow (n : Nat) (row : List (List Char)) (rest : List Char) :
    Option (List (List (List Char))) :=
  if rest.isEmpty then some [row] else (readRows? n [] rest).map (row :: ·)

theorem readRows?_comma {n : Nat} {row : List (List Char)} {field s rest : List Char}
    (h : readField? s = some (field, ',' :: rest)) :
    readRows? (n + 1) row s = readRows? n (row ++ [field]) rest := by
  simp only [readRows?, h]

theorem readRows?_lineBreak {n : Nat} {row : List (List Char)} {field s rest : List Char}
    (h : readField? s = some (field, '\r' :: '\n' :: rest)) :
    readRows? (n + 1) row s = behindRow n (row ++ [field]) rest := by
  simp only [readRows?, h]
  rfl

theorem readRows?_renderFields {fields : List (List Char)} (hne : fields ≠ []) (n : Nat)
    (row : List (List Char)) (rest : List Char) :
    readRows? (n + fields.length) row (renderFields fields ++ '\r' :: '\n' :: rest) =
      behindRow n (row ++ fields) rest := by
  induction fields generalizing row with
  | nil => exact absurd rfl hne
  | cons field fields ih =>
    cases fields with
    | nil => exact readRows?_lineBreak (readField?_renderField field (endsField_lineBreak rest))
    | cons next fields =>
      have hfield := readField?_renderField field
        (endsField_comma (renderFields (next :: fields) ++ '\r' :: '\n' :: rest))
      rw [renderFields, List.append_assoc, List.cons_append, List.length_cons, ← Nat.add_assoc,
        readRows?_comma hfield, ih (by simp)]
      · simp
      · simp

/-- A written row is read back, and so is what stands behind it. -/
theorem readRows?_renderRow {fields : List (List Char)} (hne : fields ≠ []) (n : Nat)
    (rest : List Char) :
    readRows? (n + fields.length) [] (renderRow fields ++ rest) = behindRow n fields rest := by
  unfold renderRow
  split
  · next hempty =>
    subst hempty
    have hread : readField? (['"', '"'] ++ ['\r', '\n'] ++ rest) =
        some ([], '\r' :: '\n' :: rest) := rfl
    exact readRows?_lineBreak hread
  · rw [List.append_assoc]
    exact readRows?_renderFields hne n [] rest

/-! ## All rows -/

theorem length_le_length_renderFields (fields : List (List Char)) :
    fields.length ≤ (renderFields fields).length + 1 := by
  induction fields with
  | nil => simp
  | cons field fields ih =>
    cases fields with
    | nil => simp
    | cons next fields =>
      rw [renderFields]
      · simp only [List.length_append, List.length_cons] at ih ⊢
        omega
      · simp

/-- A written row is longer than the row. -/
theorem length_lt_length_renderRow (fields : List (List Char)) :
    fields.length < (renderRow fields).length := by
  have hle := length_le_length_renderFields fields
  unfold renderRow
  split
  · next hempty =>
    subst hempty
    decide
  · rw [List.length_append, List.length_cons, List.length_singleton]
    omega

theorem flatMap_renderRow_ne_nil {rows : List (List (List Char))} (hne : rows ≠ []) :
    rows.flatMap renderRow ≠ [] := by
  obtain ⟨row, rows, rfl⟩ := List.exists_cons_of_ne_nil hne
  have hlength := length_lt_length_renderRow row
  rw [← List.length_pos_iff, List.flatMap_cons, List.length_append]
  omega

theorem readRows?_flatMap_renderRow {rows : List (List (List Char))} (hne : rows ≠ [])
    (hrows : ∀ row ∈ rows, row ≠ []) {n : Nat} (hn : (rows.flatMap renderRow).length ≤ n) :
    readRows? n [] (rows.flatMap renderRow) = some rows := by
  induction rows generalizing n with
  | nil => exact absurd rfl hne
  | cons row rows ih =>
    have hlength := length_lt_length_renderRow row
    rw [List.flatMap_cons, List.length_append] at hn
    obtain ⟨m, rfl⟩ : ∃ m, n = m + row.length := ⟨n - row.length, by omega⟩
    rw [List.flatMap_cons, readRows?_renderRow (hrows row List.mem_cons_self), behindRow]
    cases rows with
    | nil => rfl
    | cons next rows =>
      have hnext : (next :: rows).flatMap renderRow ≠ [] := flatMap_renderRow_ne_nil (by simp)
      have hread := ih (by simp) (fun row hrow => hrows row (List.mem_cons_of_mem _ hrow))
        (n := m) (by omega)
      rw [if_neg (by simpa using hnext), hread]
      rfl

/-- Rows that have fields are read back from their written form. -/
theorem read?_render {rows : List (List String)} (hrows : ∀ row ∈ rows, row ≠ []) :
    read? (render rows).toList = some rows := by
  have hflat : rows.flatMap (fun row => renderRow (row.map String.toList)) =
      (rows.map (List.map String.toList)).flatMap renderRow := by
    rw [List.flatMap_map]
  have hback : (rows.map (List.map String.toList)).map (List.map String.ofList) = rows := by
    simp [Function.comp_def]
  rw [render, String.toList_ofList, hflat, read?]
  by_cases hne : rows = []
  · subst hne
    rfl
  · have hne' : rows.map (List.map String.toList) ≠ [] := by simpa using hne
    have hread := readRows?_flatMap_renderRow hne' (by simpa using hrows) (Nat.le_succ _)
    rw [if_neg (by simpa using flatMap_renderRow_ne_nil hne'), hread, Option.map_some, hback]

end SourceCensus.Csv
