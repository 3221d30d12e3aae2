import SourceCensus.Proofs.Accessor.Greedy

/-!
# Accessors of joined candidates

Where candidates are put behind other ones, an accessor can come about that neither part has: its signature is
among the first candidates, and the others hold its end.  The scan takes that accessor up and goes on behind
it, with its first steps among the other candidates skipped.  That could cost it an accessor it would have
found there from the start.  It does not, where a line tells what it is:

> the accessors of the whole are those of the first part, one at most that reaches across, and those of the
> second part (`windows_append`).

The one that reaches across takes up three candidates.  What it skips of the second part is its closing line,
or its body and its closing line, and neither of these starts an accessor.  In front of the place where the
parts meet it leaves a signature, or a signature and a body, and without the closing line these are none.

Where an accessor stands there is no room for another one, so the scan finds on either side of it what it
finds there alone (`windows_around`).
-/

set_option autoImplicit false

namespace SourceCensus.Accessor

variable {shapes : List AccessorShape} {close : Pattern} {n : Nat}

/-! ## Accessors at the front -/

namespace StandsAtFront

variable {lines more : List (List Char)}

theorem length_le (h : StandsAtFront shapes close lines n) : n ≤ lines.length := by
  cases h with
  | whole => simp
  | parts => simp

/-- What comes behind an accessor is of no account to it. -/
theorem append (h : StandsAtFront shapes close lines n) (more : List (List Char)) :
    StandsAtFront shapes close (lines ++ more) n := by
  cases h with
  | whole hshape hwhole => exact .whole hshape hwhole
  | parts hshape hsignature hbody hclose => exact .parts hshape hsignature hbody hclose

theorem of_append (h : StandsAtFront shapes close (lines ++ more) n) (hn : n ≤ lines.length) :
    StandsAtFront shapes close lines n := by
  generalize hall : lines ++ more = all at h
  cases h with
  | whole hshape hwhole =>
    cases lines with
    | nil => simp at hn
    | cons head lines =>
      obtain ⟨rfl, -⟩ := List.cons.inj hall
      exact .whole hshape hwhole
  | parts hshape hsignature hbody hclose =>
    match lines with
    | head :: body :: last :: lines =>
      obtain ⟨rfl, hbehind⟩ := List.cons.inj hall
      obtain ⟨rfl, hlast⟩ := List.cons.inj hbehind
      obtain ⟨rfl, -⟩ := List.cons.inj hlast
      exact .parts hshape hsignature hbody hclose
    | [] | [_] | [_, _] => simp at hn

end StandsAtFront

/-! ## One step of the scan -/

section Scan

variable {c : Candidate} {rest ys : List Candidate}

theorem windowsFrom_of_stands (hkinds : Unmistakable shapes close)
    (h : StandsAtFront shapes close (c.2 :: rest.map (·.2)) (n + 1)) :
    windowsFrom shapes close 0 (c :: rest) = (c :: rest.take n) :: windowsFrom shapes close n rest := by
  rw [windowsFrom, (spanAt?_eq_some_iff hkinds).mpr h]
  rfl

theorem windowsFrom_of_not_stands (hkinds : Unmistakable shapes close)
    (h : ∀ n, ¬ StandsAtFront shapes close (c.2 :: rest.map (·.2)) n) :
    windowsFrom shapes close 0 (c :: rest) = windowsFrom shapes close 0 rest := by
  have hnone : spanAt? shapes close c.2 rest = none :=
    Option.eq_none_iff_forall_ne_some.mpr fun n hn => h n ((spanAt?_eq_some_iff hkinds).mp hn)
  rw [windowsFrom, hnone]

theorem windowsFrom_of_body (hkinds : Unmistakable shapes close) (h : IsKind shapes close c.2 .body) :
    windowsFrom shapes close 0 (c :: rest) = windowsFrom shapes close 0 rest :=
  windowsFrom_of_not_stands hkinds fun _ => StandsAtFront.not_of_kind hkinds h (by decide) (by decide)

theorem windowsFrom_of_close (hkinds : Unmistakable shapes close) (h : IsKind shapes close c.2 .close) :
    windowsFrom shapes close 0 (c :: rest) = windowsFrom shapes close 0 rest :=
  windowsFrom_of_not_stands hkinds fun _ => StandsAtFront.not_of_kind hkinds h (by decide) (by decide)

/-- At the front of joined candidates stands no accessor, or one that the first part has there by itself, or
one that the first part is too short for and in place of which it has none. -/
theorem stands_cases (hkinds : Unmistakable shapes close) (c : Candidate) (rest ys : List Candidate) :
    let Stands (behind : List Candidate) := StandsAtFront shapes close (c.2 :: behind.map (·.2))
    (∀ n, ¬ Stands (rest ++ ys) n ∧ ¬ Stands rest n) ∨
      (∃ k ≤ rest.length, Stands (rest ++ ys) (k + 1) ∧ Stands rest (k + 1)) ∨
      ∃ n, rest.length + 1 < n ∧ Stands (rest ++ ys) n ∧ ∀ k, ¬ Stands rest k := by
  intro Stands
  have happend : ∀ n, Stands rest n → Stands (rest ++ ys) n := by
    intro n hn
    change StandsAtFront shapes close (c.2 :: (rest ++ ys).map (·.2)) n
    rw [List.map_append, ← List.cons_append]
    exact StandsAtFront.append hn _
  by_cases hsome : ∃ n, Stands (rest ++ ys) n
  · obtain ⟨n, hn⟩ := hsome
    by_cases hover : rest.length + 1 < n
    · refine Or.inr (Or.inr ⟨n, hover, hn, fun k hk => ?_⟩)
      have hle := StandsAtFront.length_le hk
      rw [StandsAtFront.unique hkinds (happend k hk) hn, List.length_cons, List.length_map] at hle
      omega
    · obtain ⟨k, rfl⟩ := Nat.exists_eq_succ_of_ne_zero (Nat.ne_of_gt (StandsAtFront.pos hn))
      have hfits : k ≤ rest.length := by omega
      refine Or.inr (Or.inl ⟨k, hfits, hn, ?_⟩)
      change StandsAtFront shapes close (c.2 :: (rest ++ ys).map (·.2)) (k + 1) at hn
      rw [List.map_append, ← List.cons_append] at hn
      exact hn.of_append (by simpa using hfits)
  · exact Or.inl fun n => ⟨fun hn => hsome ⟨n, hn⟩, fun hn => hsome ⟨n, happend n hn⟩⟩

/-- An accessor that starts in front of the place where the parts meet and ends behind it: in front of that
place it leaves none, and behind it the scan finds what it finds from the start. -/
theorem windowsFrom_across (hkinds : Unmistakable shapes close)
    (h : StandsAtFront shapes close (c.2 :: (rest ++ ys).map (·.2)) n) (hover : rest.length + 1 < n) :
    ∃ y, ∃ z ∈ ys, windowsFrom shapes close 0 rest = [] ∧
      windowsFrom shapes close 0 (c :: (rest ++ ys)) = [c, y, z] :: windowsFrom shapes close 0 ys := by
  have hwindows : ∀ k, n = k + 1 → windowsFrom shapes close 0 (c :: (rest ++ ys)) =
      (c :: (rest ++ ys).take k) :: windowsFrom shapes close k (rest ++ ys) := by
    rintro k rfl
    exact windowsFrom_of_stands hkinds h
  generalize hlines : c.2 :: (rest ++ ys).map (·.2) = lines at h
  cases h with
  | whole => omega
  | parts hshape hsignature hbody hclose =>
    obtain ⟨-, hparts⟩ := List.cons.inj hlines
    obtain ⟨y, behind, hsplit, rfl, hlast⟩ := List.map_eq_cons_iff.mp hparts
    obtain ⟨z, more, rfl, rfl, -⟩ := List.map_eq_cons_iff.mp hlast
    have hbodyKind : IsKind shapes close y.2 .body := ⟨_, hshape, hbody⟩
    have hcloseKind : IsKind shapes close z.2 .close := hclose
    rw [hwindows 2 rfl]
    -- The parts meet behind the signature or behind the body.
    match rest with
    | [] =>
      rw [List.nil_append] at hsplit
      subst hsplit
      refine ⟨y, z, by simp, rfl, ?_⟩
      rw [windowsFrom_of_body hkinds hbodyKind, windowsFrom_of_close hkinds hcloseKind]
      rfl
    | [b] =>
      obtain ⟨rfl, rfl⟩ := List.cons.inj hsplit
      refine ⟨b, z, by simp, windowsFrom_of_body hkinds hbodyKind, ?_⟩
      rw [windowsFrom_of_close hkinds hcloseKind]
      rfl
    | _ :: _ :: _ =>
      simp only [List.length_cons] at hover
      omega

end Scan

/-! ## The whole scan -/

/-- At most one accessor, with its first candidate in the first part and its last one in the second. -/
def AcrossAtMostOnce (xs ys : List Candidate) (across : List (List Candidate)) : Prop :=
  across = [] ∨ ∃ x ∈ xs, ∃ y, ∃ z ∈ ys, across = [[x, y, z]]

theorem AcrossAtMostOnce.cons {xs ys : List Candidate} {across : List (List Candidate)}
    (h : AcrossAtMostOnce xs ys across) (c : Candidate) : AcrossAtMostOnce (c :: xs) ys across := by
  rcases h with hnone | ⟨x, hx, hone⟩
  · exact Or.inl hnone
  · exact Or.inr ⟨x, List.mem_cons_of_mem c hx, hone⟩

theorem windowsFrom_append (hkinds : Unmistakable shapes close) {skip : Nat} {xs : List Candidate}
    (ys : List Candidate) (hskip : skip ≤ xs.length) :
    ∃ across, AcrossAtMostOnce xs ys across ∧
      (∀ n, StandsAtFront shapes close (ys.map (·.2)) n → across = []) ∧
      windowsFrom shapes close skip (xs ++ ys) =
        windowsFrom shapes close skip xs ++ across ++ windowsFrom shapes close 0 ys := by
  induction xs generalizing skip with
  | nil =>
    obtain rfl : skip = 0 := Nat.le_zero.mp hskip
    exact ⟨[], Or.inl rfl, fun _ _ => rfl, rfl⟩
  | cons c rest ih =>
    cases skip with
    | succ skip =>
      obtain ⟨across, hacross, hseam, heq⟩ := ih (Nat.le_of_succ_le_succ hskip)
      exact ⟨across, hacross.cons c, hseam, heq⟩
    | zero =>
      rw [List.cons_append]
      rcases stands_cases hkinds c rest ys with hnone | ⟨k, hfits, hwhole, hpart⟩ | ⟨n, hover, hwhole, hnone⟩
      · obtain ⟨across, hacross, hseam, heq⟩ := ih (Nat.zero_le _)
        refine ⟨across, hacross.cons c, hseam, ?_⟩
        rw [windowsFrom_of_not_stands hkinds fun n => (hnone n).1,
          windowsFrom_of_not_stands hkinds fun n => (hnone n).2, heq]
      · obtain ⟨across, hacross, hseam, heq⟩ := ih hfits
        refine ⟨across, hacross.cons c, hseam, ?_⟩
        rw [windowsFrom_of_stands hkinds hwhole, windowsFrom_of_stands hkinds hpart, heq,
          List.take_append_of_le_length hfits]
        rfl
      · obtain ⟨y, z, hz, hrest, heq⟩ := windowsFrom_across hkinds hwhole hover
        refine ⟨[[c, y, z]], Or.inr ⟨c, List.mem_cons_self, y, z, hz, rfl⟩, fun m hseam => ?_, ?_⟩
        · have hdrop : (c.2 :: (rest ++ ys).map (·.2)).drop (rest.length + 1) = ys.map (·.2) := by simp
          rw [← hdrop] at hseam
          exact absurd hseam (hwhole.not_inside hkinds (Nat.succ_pos _) hover)
        · rw [heq, windowsFrom_of_not_stands hkinds hnone, hrest]
          rfl

/-- Joined candidates have the accessors of both parts, and at most one that reaches across; none does where
the second part begins with an accessor. -/
theorem windows_append (hkinds : Unmistakable shapes close) (xs ys : List Candidate) :
    ∃ across, AcrossAtMostOnce xs ys across ∧
      (∀ n, StandsAtFront shapes close (ys.map (·.2)) n → across = []) ∧
      windows shapes close (xs ++ ys) = windows shapes close xs ++ across ++ windows shapes close ys :=
  windowsFrom_append hkinds ys (Nat.zero_le _)

/-! ## An accessor among other candidates -/

theorem windowsFrom_eq_drop (skip : Nat) (candidates : List Candidate) :
    windowsFrom shapes close skip candidates = windows shapes close (candidates.drop skip) := by
  induction candidates generalizing skip with
  | nil => rw [windowsFrom, List.drop_nil, windows, windowsFrom]
  | cons c rest ih =>
    cases skip with
    | zero => rfl
    | succ skip => exact ih skip

/-- An accessor is found wherever it stands, and the scan finds on either side of it what it finds there
alone. -/
theorem windows_around (hkinds : Unmistakable shapes close) {window : List Candidate}
    (h : StandsAtFront shapes close (window.map (·.2)) window.length) (xs ys : List Candidate) :
    windows shapes close (xs ++ (window ++ ys)) =
      windows shapes close xs ++ window :: windows shapes close ys := by
  have hfront : StandsAtFront shapes close ((window ++ ys).map (·.2)) window.length := by
    rw [List.map_append]
    exact h.append _
  obtain ⟨across, -, hseam, heq⟩ := windows_append hkinds xs (window ++ ys)
  rw [heq, hseam _ hfront, List.append_nil]
  cases window with
  | nil => exact absurd h.pos (Nat.lt_irrefl 0)
  | cons c window =>
    have hfirst : windows shapes close (c :: (window ++ ys)) =
        (c :: (window ++ ys).take window.length) :: windowsFrom shapes close window.length (window ++ ys) :=
      windowsFrom_of_stands hkinds hfront
    rw [List.cons_append, hfirst, List.take_left, windowsFrom_eq_drop, List.drop_left]

end SourceCensus.Accessor
