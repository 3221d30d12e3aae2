import SourceCensus.Text.Layout

/-!
# Lines and the ends that are written behind them

A line may end in three ways, and each line of a file may end in another one.  Reading the lines of such a
text does not quite give the lines that were written.  A carriage return, with an empty line behind it that
ends in a line feed, is read as the one end of one line, and the empty line is lost; a last line that is empty
and has no end leaves no trace either.  Nothing else can happen:

> the lines that are read are the ones that were written, as far as they are not empty
> (`filled_lines_write`).

No other character ends a line, so a line is never cut in two, whatever separators it holds.
-/

set_option autoImplicit false

namespace SourceCensus.Text

/-- What can stand at the end of a line. -/
inductive LineEnd where
  | lineFeed
  | carriageReturn
  /-- A carriage return and a line feed. -/
  | both
  deriving Repr, DecidableEq

def LineEnd.chars : LineEnd → List Char
  | lineFeed => ['\n']
  | carriageReturn => ['\r']
  | both => ['\r', '\n']

/-- The text of lines that have each its own end, and of a last line without one. -/
def write (ended : List (List Char × LineEnd)) (last : Option (List Char)) : List Char :=
  (ended.flatMap fun e => e.1 ++ e.2.chars) ++ last.getD []

/-- Whether the text has no end of a line in it. -/
def IsLine (line : List Char) : Prop := '\n' ∉ line ∧ '\r' ∉ line

/-- The lines that are not empty. -/
def filled (lines : List (List Char)) : List (List Char) := lines.filter (!·.isEmpty)

variable {line s first : List Char} {rest : List (List Char)}

@[simp] theorem filled_nil_cons : filled ([] :: rest) = filled rest := rfl

@[simp] theorem filled_cons_cons (c : Char) : filled ((c :: line) :: rest) = (c :: line) :: filled rest := rfl

theorem filled_append (lines more : List (List Char)) : filled (lines ++ more) = filled lines ++ filled more :=
  List.filter_append ..

/-! ## Reading one line -/

theorem lines_cons {c : Char} (hfeed : c ≠ '\n') (hreturn : c ≠ '\r') (s : List Char) :
    lines (c :: s) = extendFirst c (lines s) := by
  rw [lines]
  · simp [hfeed, hreturn]
  · intro t h
    exact absurd h hreturn

theorem lines_append (hline : IsLine line) (h : lines s = first :: rest) :
    lines (line ++ s) = (line ++ first) :: rest := by
  induction line with
  | nil => exact h
  | cons c line ih =>
    simp only [IsLine, List.mem_cons, not_or] at hline
    rw [List.cons_append, lines_cons (Ne.symm hline.1.1) (Ne.symm hline.2.1),
      ih ⟨hline.1.2, hline.2.2⟩]
    rfl

theorem lines_of_isLine (hline : IsLine line) (hne : line ≠ []) : lines line = [line] := by
  obtain ⟨init, c, rfl⟩ := (List.eq_nil_or_concat line).resolve_left hne
  simp only [List.concat_eq_append, IsLine, List.mem_append, List.mem_singleton, not_or] at hline ⊢
  apply lines_append ⟨hline.1.1, hline.2.1⟩
  rw [lines_cons (Ne.symm hline.1.2) (Ne.symm hline.2.2)]
  rfl

/-- Behind the end of a line the other lines are read, but for an empty one that the end may have taken in. -/
theorem lines_lineEnd (stop : LineEnd) (s : List Char) :
    ∃ rest, lines (stop.chars ++ s) = [] :: rest ∧ filled rest = filled (lines s) := by
  cases stop with
  | lineFeed => exact ⟨lines s, rfl, rfl⟩
  | both => exact ⟨lines s, rfl, rfl⟩
  | carriageReturn =>
    cases s with
    | nil => exact ⟨[], rfl, rfl⟩
    | cons c s =>
      by_cases hc : c = '\n'
      · subst hc
        exact ⟨lines s, rfl, rfl⟩
      · refine ⟨lines (c :: s), ?_, rfl⟩
        show lines ('\r' :: c :: s) = _
        rw [lines]
        · rfl
        · intro t _ h
          exact hc (List.cons.inj h).1

/-! ## Reading what was written -/

theorem filled_lines_write {ended : List (List Char × LineEnd)} {last : Option (List Char)}
    (h : ∀ line ∈ ended.map (·.1) ++ last.toList, IsLine line) :
    filled (lines (write ended last)) = filled (ended.map (·.1) ++ last.toList) := by
  induction ended with
  | nil =>
    cases last with
    | none => rfl
    | some line =>
      by_cases hne : line = []
      · subst hne
        rfl
      · have hlines : lines line = [line] := lines_of_isLine (h line (by simp)) hne
        exact congrArg filled hlines
  | cons e ended ih =>
    obtain ⟨line, stop⟩ := e
    rw [List.map_cons, List.cons_append, List.forall_mem_cons] at h
    obtain ⟨rest, hrest, hfilled⟩ := lines_lineEnd stop (write ended last)
    have hwrite : write ((line, stop) :: ended) last = line ++ (stop.chars ++ write ended last) := by
      simp [write]
    have hlines : lines (write ((line, stop) :: ended) last) = line :: rest := by
      rw [hwrite, lines_append h.1 hrest, List.append_nil]
    rw [hlines, ← List.singleton_append, filled_append, hfilled, ih h.2, ← filled_append]
    rfl

end SourceCensus.Text
