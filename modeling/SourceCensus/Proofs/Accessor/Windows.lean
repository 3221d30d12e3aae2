import SourceCensus.Accessor

/-!
# Windows of accessors

`Accessor.positions` gives the line numbers of all accessors in one list, and no longer says which of them
belong together.  Statements about *an* accessor need that, so this file takes the same walk over the
candidates and keeps them apart: `Accessor.windows` lists, for each accessor found, the candidates that it
takes up.  The line numbers are those of the windows one behind the other (`positions_eq_flatten`), so what
is proved of windows holds of what is left out of a count.

A window is a stretch of neighbouring candidates (`infix_of_mem_windows`), and one of three candidates holds
signature, body and closing line of one shape (`spanOf?_eq_some_three`).
-/

set_option autoImplicit false

namespace SourceCensus.Accessor

variable {shapes : List AccessorShape} {close : Pattern}

/-- The candidates of each accessor, the first `skip` candidates belonging to one that was found before. -/
def windowsFrom (shapes : List AccessorShape) (close : Pattern) :
    Nat → List Candidate → List (List Candidate)
  | _, [] => []
  | skip + 1, _ :: rest => windowsFrom shapes close skip rest
  | 0, c :: rest =>
    match spanAt? shapes close c.2 rest with
    | none => windowsFrom shapes close 0 rest
    | some n => (c :: rest.take (n - 1)) :: windowsFrom shapes close (n - 1) rest

def windows (shapes : List AccessorShape) (close : Pattern) (candidates : List Candidate) :
    List (List Candidate) :=
  windowsFrom shapes close 0 candidates

/-! ## Line numbers -/

theorem positionsFrom_sublist (skip : Nat) (candidates : List Candidate) :
    (positionsFrom shapes close skip candidates).Sublist (candidates.map (·.1)) := by
  induction candidates generalizing skip with
  | nil => simp [positionsFrom]
  | cons c rest ih =>
    cases skip with
    | succ skip => exact (ih skip).cons_cons c.1
    | zero =>
      rw [positionsFrom]
      split
      · exact (ih 0).cons c.1
      · exact (ih _).cons_cons c.1

theorem positionsFrom_eq_flatten (skip : Nat) (candidates : List Candidate) :
    positionsFrom shapes close skip candidates =
      (candidates.take skip ++ (windowsFrom shapes close skip candidates).flatten).map (·.1) := by
  induction candidates generalizing skip with
  | nil => simp [positionsFrom, windowsFrom]
  | cons c rest ih =>
    cases skip with
    -- The candidates still to be skipped are in a window that was closed before this point.
    | succ skip => simp [positionsFrom, windowsFrom, ih]
    | zero =>
      cases hspan : spanAt? shapes close c.2 rest with
      | none => simp [positionsFrom, windowsFrom, hspan, ih]
      | some n => simp [positionsFrom, windowsFrom, hspan, ih]

/-- The line numbers are those of the windows, one window behind the other. -/
theorem positions_eq_flatten (candidates : List Candidate) :
    positions shapes close candidates = ((windows shapes close candidates).flatten).map (·.1) := by
  rw [positions, positionsFrom_eq_flatten, List.take_zero, List.nil_append, windows]

theorem positionsFrom_nil_shapes (candidates : List Candidate) :
    positionsFrom [] close 0 candidates = [] := by
  induction candidates with
  | nil => rfl
  | cons c rest ih => simp [positionsFrom, spanAt?, ih]

/-- How much an accessor takes up depends on the lines of the candidates and not on their numbers. -/
theorem spanAt?_congr {head : List Char} {rest rest' : List Candidate}
    (h : rest.map (·.2) = rest'.map (·.2)) :
    spanAt? shapes close head rest = spanAt? shapes close head rest' := by
  have hof : spanOf? close head rest = spanOf? close head rest' := by
    funext shape
    cases rest with
    | nil =>
      obtain rfl := List.map_eq_nil_iff.mp h.symm
      rfl
    | cons x rest =>
      obtain ⟨x', behind, rfl, hx, hbehind⟩ := List.map_eq_cons_iff.mp h.symm
      cases rest with
      | nil =>
        obtain rfl := List.map_eq_nil_iff.mp hbehind
        rfl
      | cons y rest =>
        obtain ⟨y', more, rfl, hy, -⟩ := List.map_eq_cons_iff.mp hbehind
        simp only [spanOf?, hx, hy]
  rw [spanAt?, spanAt?, hof]

theorem length_positionsFrom_congr {skip : Nat} {candidates candidates' : List Candidate}
    (h : candidates.map (·.2) = candidates'.map (·.2)) :
    (positionsFrom shapes close skip candidates).length =
      (positionsFrom shapes close skip candidates').length := by
  induction candidates generalizing skip candidates' with
  | nil =>
    obtain rfl := List.map_eq_nil_iff.mp h.symm
    rfl
  | cons c rest ih =>
    obtain ⟨c', rest', rfl, hc, hrest⟩ := List.map_eq_cons_iff.mp h.symm
    cases skip with
    | succ skip => simp only [positionsFrom, List.length_cons, ih hrest.symm]
    | zero =>
      have hspan : spanAt? shapes close c'.2 rest' = spanAt? shapes close c.2 rest := by
        rw [hc, spanAt?_congr hrest]
      rw [positionsFrom, positionsFrom, hspan]
      cases spanAt? shapes close c.2 rest with
      | none => exact ih hrest.symm
      | some n => simp only [List.length_cons, ih hrest.symm]

/-! ## What a window holds -/

theorem spanOf?_eq_some_three {head : List Char} {rest : List Candidate} {shape : AccessorShape}
    (h : spanOf? close head rest shape = some 3) :
    ∃ second third more, rest = second :: third :: more ∧ shape.isSignature head = true ∧
      shape.isBody second.2 = true ∧ close.fitsLine third.2 = true := by
  unfold spanOf? at h
  split at h
  · simp at h
  · split at h
    · next second third more =>
      split at h
      · next hparts =>
        simp only [Bool.and_eq_true] at hparts
        exact ⟨second, third, more, rfl, hparts.1.1, hparts.1.2, hparts.2⟩
      · simp at h
    · simp at h

theorem spanOf?_eq_one_or_three {head : List Char} {rest : List Candidate} {shape : AccessorShape}
    {n : Nat} (h : spanOf? close head rest shape = some n) : n = 1 ∨ n = 3 := by
  unfold spanOf? at h
  split at h
  · exact Or.inl (Option.some.inj h).symm
  · split at h
    · split at h
      · exact Or.inr (Option.some.inj h).symm
      · simp at h
    · simp at h

/-- Each window starts at a candidate and takes up as many as its accessor does. -/
theorem exists_span_of_mem_windowsFrom {skip : Nat} {candidates window : List Candidate}
    (h : window ∈ windowsFrom shapes close skip candidates) :
    ∃ before c rest n, candidates = before ++ c :: rest ∧
      spanAt? shapes close c.2 rest = some n ∧ window = c :: rest.take (n - 1) := by
  induction candidates generalizing skip with
  | nil => simp [windowsFrom] at h
  | cons c rest ih =>
    have hlater : ∀ skip, window ∈ windowsFrom shapes close skip rest →
        ∃ before c' rest' n, c :: rest = before ++ c' :: rest' ∧
          spanAt? shapes close c'.2 rest' = some n ∧ window = c' :: rest'.take (n - 1) := by
      intro skip hmem
      obtain ⟨before, c', rest', n, hrest, hspan, hwindow⟩ := ih hmem
      exact ⟨c :: before, c', rest', n, by rw [hrest, List.cons_append], hspan, hwindow⟩
    cases skip with
    | succ skip => exact hlater skip h
    | zero =>
      rw [windowsFrom] at h
      split at h
      · exact hlater 0 h
      · next n hspan =>
        rcases List.mem_cons.mp h with rfl | hmem
        · exact ⟨[], c, rest, n, rfl, hspan, rfl⟩
        · exact hlater (n - 1) hmem

/-- The candidates of a window are neighbours. -/
theorem infix_of_mem_windows {candidates window : List Candidate}
    (h : window ∈ windows shapes close candidates) : window <:+: candidates := by
  obtain ⟨before, c, rest, n, rfl, -, rfl⟩ := exists_span_of_mem_windowsFrom h
  refine ⟨before, rest.drop (n - 1), ?_⟩
  rw [List.append_assoc, List.cons_append, List.take_append_drop]

/-- The parts of a window of three are signature, body and closing line of one and the same shape. -/
theorem parts_of_mem_windows {candidates : List Candidate} {x y z : Candidate}
    (h : [x, y, z] ∈ windows shapes close candidates) :
    ∃ shape ∈ shapes, shape.isSignature x.2 = true ∧ shape.isBody y.2 = true ∧
      close.fitsLine z.2 = true := by
  obtain ⟨before, c, rest, n, rfl, hspan, hwindow⟩ := exists_span_of_mem_windowsFrom h
  obtain ⟨rfl, hrest⟩ := List.cons.inj hwindow
  obtain ⟨shape, hshape, hof⟩ := List.exists_of_findSome?_eq_some hspan
  refine ⟨shape, hshape, ?_⟩
  rcases spanOf?_eq_one_or_three hof with rfl | rfl
  · simp at hrest
  · obtain ⟨second, third, more, rfl, hsignature, hbody, hclose⟩ := spanOf?_eq_some_three hof
    simp only [Nat.add_one_sub_one, List.take_succ_cons, List.take_zero] at hrest
    obtain ⟨rfl, hthird⟩ := List.cons.inj hrest
    obtain ⟨rfl, -⟩ := List.cons.inj hthird
    exact ⟨hsignature, hbody, hclose⟩

end SourceCensus.Accessor
