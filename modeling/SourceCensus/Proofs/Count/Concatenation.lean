import SourceCensus.Proofs.Accessor.Joining
import SourceCensus.Proofs.Count.Boilerplate
import SourceCensus.Proofs.Count.Joining

/-!
# Counts of files put together

If both scans are in code at the end of a file, they read what is put behind it as they would read it alone.
So the counts of the two parts add up, but for the one count that looks at several lines at once: an accessor
can begin in the first part and end in the second, and neither part alone knows of it.  There is one of that
kind at most, and

> the count without accessors is the sum of those of the parts, less the lines of the accessor that reaches
> across, which are none or three (`counts_append`).

`Survey.across` are the accessors of a survey with a candidate on either side of a line number.
-/

set_option autoImplicit false

namespace SourceCensus

open Accessor (Candidate)

namespace Survey

variable {m : Markers} {lang : Language} {s s' : Survey} {xs ys : List (List Char)}

/-- A candidate of the window is in front of the line `boundary`, and one is not. -/
def reachesAcross (boundary : Nat) (window : List Candidate) : Bool :=
  window.any (fun c => c.1 < boundary) && window.any (fun c => boundary ≤ c.1)

/-- The accessors that reach from in front of the line `boundary` across to it or beyond. -/
def across (lang : Language) (boundary : Nat) (s : Survey) : List (List Candidate) :=
  (s.accessors lang).filter (reachesAcross boundary)

/-! ## Candidates of both parts -/

theorem candidatesFrom_append (start : Nat) (s s' : Survey) :
    candidatesFrom start (s ++ s') = candidatesFrom start s ++ candidatesFrom (start + s.length) s' := by
  induction s generalizing start with
  | nil => rfl
  | cons e rest ih =>
    rw [List.cons_append, candidatesFrom, candidatesFrom, ih, List.length_cons, Nat.add_comm rest.length,
      Nat.add_assoc]
    split <;> rfl

theorem lt_of_mem_candidates {c : Candidate} (h : c ∈ s.candidates) : c.1 < s.length := by
  obtain ⟨e, he, -⟩ := mem_candidates.mp h
  exact (List.getElem?_eq_some_iff.mp he).1

theorem le_of_mem_candidatesFrom {start : Nat} {c : Candidate} (h : c ∈ candidatesFrom start s) :
    start ≤ c.1 := by
  obtain ⟨i, e, -, -, rfl⟩ := mem_candidatesFrom.mp h
  exact Nat.le_add_right start i

/-- Where the candidates are counted from makes no difference to how many lines accessors take up. -/
theorem length_flatten_windows (start : Nat) (s : Survey) :
    (Accessor.windows lang.accessorShapes lang.accessorClose (candidatesFrom start s)).flatten.length =
      (s.accessorLines lang).length := by
  have hlines : (candidatesFrom start s).map (·.2) = s.candidates.map (·.2) := by
    rw [candidates, map_candidatesFrom, map_candidatesFrom]
  have hlength : (Accessor.positions lang.accessorShapes lang.accessorClose (candidatesFrom start s)).length =
      (s.accessorLines lang).length := Accessor.length_positionsFrom_congr hlines
  rw [← hlength, Accessor.positions_eq_flatten, List.length_map]

/-! ## Accessors of both parts -/

theorem reachesAcross_of_lt {boundary : Nat} {window : List Candidate} (h : ∀ c ∈ window, c.1 < boundary) :
    reachesAcross boundary window = false := by
  have hbehind : (window.any fun c => boundary ≤ c.1) = false :=
    List.any_eq_false.mpr fun c hc => by simpa using h c hc
  rw [reachesAcross, hbehind, Bool.and_false]

theorem reachesAcross_of_le {boundary : Nat} {window : List Candidate}
    (h : ∀ c ∈ window, boundary ≤ c.1) : reachesAcross boundary window = false := by
  have hfront : (window.any fun c => c.1 < boundary) = false :=
    List.any_eq_false.mpr fun c hc => by simpa using h c hc
  rw [reachesAcross, hfront, Bool.false_and]

theorem filter_reachesAcross_front (s : Survey) :
    (s.accessors lang).filter (reachesAcross s.length) = [] := by
  refine List.filter_eq_nil_iff.mpr fun window hwindow => ?_
  rw [Bool.not_eq_true]
  exact reachesAcross_of_lt fun c hc =>
    lt_of_mem_candidates ((Accessor.infix_of_mem_windows hwindow).subset hc)

theorem filter_reachesAcross_behind (start : Nat) (s : Survey) :
    (Accessor.windows lang.accessorShapes lang.accessorClose (candidatesFrom start s)).filter
      (reachesAcross start) = [] := by
  refine List.filter_eq_nil_iff.mpr fun window hwindow => ?_
  rw [Bool.not_eq_true]
  exact reachesAcross_of_le fun c hc =>
    le_of_mem_candidatesFrom ((Accessor.infix_of_mem_windows hwindow).subset hc)

/-- Two surveys put together have the accessors of both and between them those that reach across, of which
there is one at most. -/
theorem accessors_append (hkinds : Accessor.Unmistakable lang.accessorShapes lang.accessorClose)
    (s s' : Survey) :
    (s ++ s').accessors lang = s.accessors lang ++ (s ++ s').across lang s.length ++
        Accessor.windows lang.accessorShapes lang.accessorClose (candidatesFrom s.length s') ∧
      Accessor.AcrossAtMostOnce s.candidates (candidatesFrom s.length s')
        ((s ++ s').across lang s.length) := by
  obtain ⟨found, hfound, -, hwindows⟩ :=
    Accessor.windows_append hkinds s.candidates (candidatesFrom s.length s')
  have haccessors : (s ++ s').accessors lang = s.accessors lang ++ found ++
      Accessor.windows lang.accessorShapes lang.accessorClose (candidatesFrom s.length s') := by
    rw [accessors, candidates, candidatesFrom_append, Nat.zero_add]
    exact hwindows
  -- The accessors of the parts lie on one side of the line each, so the filter leaves `found` alone.
  have hreaches : found.filter (reachesAcross s.length) = found := by
    rcases hfound with rfl | ⟨x, hx, y, z, hz, rfl⟩
    · rfl
    · have hfront := lt_of_mem_candidates hx
      have hbehind := le_of_mem_candidatesFrom hz
      simp [reachesAcross, hfront, hbehind]
  have hacross : (s ++ s').across lang s.length = found := by
    rw [across, haccessors, List.filter_append, List.filter_append, filter_reachesAcross_front,
      filter_reachesAcross_behind, hreaches, List.nil_append, List.append_nil]
  rw [hacross]
  exact ⟨haccessors, hfound⟩

/-- The lines of accessors that reach across are none or three. -/
theorem length_flatten_across (hkinds : Accessor.Unmistakable lang.accessorShapes lang.accessorClose)
    (s s' : Survey) :
    ((s ++ s').across lang s.length).flatten.length = 0 ∨
      ((s ++ s').across lang s.length).flatten.length = 3 := by
  rcases (accessors_append hkinds s s').2 with hnone | ⟨x, -, y, z, -, hone⟩
  · exact Or.inl (by rw [hnone]; rfl)
  · exact Or.inr (by rw [hone]; rfl)

theorem length_accessorLines_append
    (hkinds : Accessor.Unmistakable lang.accessorShapes lang.accessorClose) (s s' : Survey) :
    ((s ++ s').accessorLines lang).length = (s.accessorLines lang).length +
      ((s ++ s').across lang s.length).flatten.length + (s'.accessorLines lang).length := by
  have hlength (r : Survey) : (r.accessorLines lang).length = (r.accessors lang).flatten.length := by
    rw [accessorLines_eq_flatten, List.length_map]
  rw [hlength (s ++ s'), (accessors_append hkinds s s').1, List.flatten_append, List.flatten_append,
    List.length_append, List.length_append, length_flatten_windows, ← hlength s]

/-! ## Counts of both parts -/

theorem baseline_append (s s' : Survey) : (s ++ s').baseline = s.baseline + s'.baseline :=
  List.countP_append

theorem shared_append (s s' : Survey) : (s ++ s').shared = s.shared + s'.shared :=
  List.countP_append

theorem enhanced_append (hkinds : Accessor.Unmistakable lang.accessorShapes lang.accessorClose)
    (s s' : Survey) :
    (s ++ s').enhanced lang true + ((s ++ s').across lang s.length).flatten.length =
      s.enhanced lang true + s'.enhanced lang true := by
  have hlines := length_accessorLines_append hkinds s s'
  -- None of the three differences is cut off at zero.
  have hle : (s.accessorLines lang).length ≤ s.shared := s.length_accessorLines_le
  have hle' : (s'.accessorLines lang).length ≤ s'.shared := s'.length_accessorLines_le
  have hle'' : ((s ++ s').accessorLines lang).length ≤ (s ++ s').shared := length_accessorLines_le _
  simp only [enhanced, if_true, shared_append] at hle'' ⊢
  omega

end Survey

/-- Where both scans are in code behind the first of two Java files, the baseline of both together is the sum
of their baselines, and so is the enhanced count with accessors.  Without accessors it is the sum less the
lines of accessors that reach from the first file into the second, and these are none or three. -/
theorem counts_append {xs ys : List (List Char)}
    (hplain : Markers.java.regionAfter false .code (xs.map Text.trim) = .code)
    (hstripping : Markers.java.regionAfter true .code (xs.map Text.trim) = .code) :
    let lost := ((Survey.ofLines .java (xs ++ ys)).across .java xs.length).flatten.length
    (∀ dropAccessors, ∃ a b, countLines .java .baseline dropAccessors xs = .ok a ∧
      countLines .java .baseline dropAccessors ys = .ok b ∧
      countLines .java .baseline dropAccessors (xs ++ ys) = .ok (a + b)) ∧
    (∃ a b, countLines .java .enhanced false xs = .ok a ∧ countLines .java .enhanced false ys = .ok b ∧
      countLines .java .enhanced false (xs ++ ys) = .ok (a + b)) ∧
    (∃ a b n, countLines .java .enhanced true xs = .ok a ∧ countLines .java .enhanced true ys = .ok b ∧
      countLines .java .enhanced true (xs ++ ys) = .ok n ∧ n ≤ a + b ∧ n + lost = a + b) ∧
    (lost = 0 ∨ lost = 3) := by
  intro lost
  have hsurvey : Survey.ofLines .java (xs ++ ys) = Survey.ofLines .java xs ++ Survey.ofLines .java ys := by
    rw [Survey.ofLines, Survey.ofLinesFrom_append, hplain, hstripping]
    rfl
  have hlost : lost = ((Survey.ofLines .java xs ++ Survey.ofLines .java ys).across .java
      (Survey.ofLines .java xs).length).flatten.length := by
    rw [Survey.length_ofLines, ← hsurvey]
  have henhanced := Survey.enhanced_append Accessor.unmistakable_java (Survey.ofLines .java xs)
    (Survey.ofLines .java ys)
  rw [← hlost, ← hsurvey] at henhanced
  refine ⟨fun dropAccessors => ?_, ?_, ?_, ?_⟩
  · refine ⟨_, _, countLines_java .baseline dropAccessors xs,
      countLines_java .baseline dropAccessors ys, ?_⟩
    rw [countLines_java, hsurvey]
    exact congrArg Except.ok (Survey.baseline_append _ _)
  · refine ⟨_, _, countLines_java .enhanced false xs, countLines_java .enhanced false ys, ?_⟩
    rw [countLines_java, hsurvey]
    exact congrArg Except.ok (Survey.shared_append _ _)
  · exact ⟨_, _, _, countLines_java .enhanced true xs, countLines_java .enhanced true ys,
      countLines_java .enhanced true (xs ++ ys), Nat.le.intro henhanced, henhanced⟩
  · rw [hlost]
    exact Survey.length_flatten_across Accessor.unmistakable_java _ _

/-- A getter that begins in the first file and ends in the second, which has a setter of its own behind it:
the three lines are counted in the parts and not in the whole. -/
theorem counts_append_getter :
    let xs := ["int x;", "int getX() \x7b"].map String.toList
    let ys := ["return x;", "\x7d", "void setX(int y) \x7b x = y; \x7d"].map String.toList
    Markers.java.regionAfter false .code (xs.map Text.trim) = .code ∧
      Markers.java.regionAfter true .code (xs.map Text.trim) = .code ∧
      ((Survey.ofLines .java (xs ++ ys)).across .java 2).flatten.length = 3 ∧
      countLines .java .enhanced true xs = .ok 2 ∧ countLines .java .enhanced true ys = .ok 2 ∧
      countLines .java .enhanced true (xs ++ ys) = .ok 1 := by
  intro xs ys
  have hplain : Markers.java.regionAfter false .code (xs.map Text.trim) = .code := by decide +kernel
  have hstripping : Markers.java.regionAfter true .code (xs.map Text.trim) = .code := by decide +kernel
  have hlost : ((Survey.ofLines .java (xs ++ ys)).across .java 2).flatten.length = 3 := by decide +kernel
  have hxs : countLines .java .enhanced true xs = .ok 2 := by decide +kernel
  have hys : countLines .java .enhanced true ys = .ok 2 := by decide +kernel
  obtain ⟨-, -, ⟨a, b, n, ha, hb, hn, -, hsum⟩, -⟩ :=
    @counts_append xs ys hplain hstripping
  obtain rfl : 2 = a := Except.ok.inj (hxs.symm.trans ha)
  obtain rfl : 2 = b := Except.ok.inj (hys.symm.trans hb)
  refine ⟨hplain, hstripping, hlost, hxs, hys, ?_⟩
  rw [hn]
  refine congrArg Except.ok ?_
  have hthree : n + 3 = 2 + 2 := hlost ▸ hsum
  omega

end SourceCensus
