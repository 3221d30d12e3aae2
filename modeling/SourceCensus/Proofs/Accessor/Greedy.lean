import SourceCensus.Language.Java
import SourceCensus.Proofs.Accessor.Windows
import SourceCensus.Proofs.Pattern.Ends

/-!
# The scan for accessors misses none

Accessors are looked for from the front.  One that is found is jumped over, and the search never goes back;
at each place the shapes are tried in order, and the accessor on one line before the one on three.  All of
this could hide an accessor: one that starts inside another, or one of a shape that comes second.  It hides
none where a line tells what it is:

> no line is of two of the kinds *accessor on one line*, *signature*, *body* and *closing line*
> (`Unmistakable`).

Then two accessors that overlap are the same one (`StandsAtFront.apart`), and the scan finds exactly what a
list of all places would (`mem_windowsFrom_iff`).  For Java the last character of a line decides: a signature
ends in an opening brace, a body in a semicolon, and an accessor on one line in a closing brace that has
something in front of it (`unmistakable_java`).
-/

set_option autoImplicit false

namespace SourceCensus.Accessor

/-- The accessor on the first lines of the candidates, and how many it takes up. -/
inductive StandsAtFront (shapes : List AccessorShape) (close : Pattern) : List (List Char) → Nat → Prop
  | whole {shape : AccessorShape} {head : List Char} {rest : List (List Char)} (hshape : shape ∈ shapes)
      (hwhole : shape.isWhole close head = true) : StandsAtFront shapes close (head :: rest) 1
  | parts {shape : AccessorShape} {head body last : List Char} {rest : List (List Char)}
      (hshape : shape ∈ shapes) (hsignature : shape.isSignature head = true)
      (hbody : shape.isBody body = true) (hclose : close.fitsLine last = true) :
      StandsAtFront shapes close (head :: body :: last :: rest) 3

/-- What a line can be to an accessor. -/
inductive Kind where
  | whole
  | signature
  | body
  | close
  deriving Repr, DecidableEq

/-- The line is of the kind, for one of the shapes. -/
def IsKind (shapes : List AccessorShape) (close : Pattern) (line : List Char) : Kind → Prop
  | .whole => ∃ shape ∈ shapes, shape.isWhole close line = true
  | .signature => ∃ shape ∈ shapes, shape.isSignature line = true
  | .body => ∃ shape ∈ shapes, shape.isBody line = true
  | .close => close.fitsLine line = true

/-- No line is of two kinds. -/
def Unmistakable (shapes : List AccessorShape) (close : Pattern) : Prop :=
  ∀ line kind kind', IsKind shapes close line kind → IsKind shapes close line kind' → kind = kind'

variable {shapes : List AccessorShape} {close : Pattern} {lines : List (List Char)} {n n' : Nat}

/-! ## Accessors do not overlap -/

namespace StandsAtFront

theorem pos (h : StandsAtFront shapes close lines n) : 0 < n := by
  cases h <;> decide

theorem exists_head (h : StandsAtFront shapes close lines n) :
    ∃ head rest, lines = head :: rest ∧
      (n = 1 ∧ IsKind shapes close head .whole ∨ n = 3 ∧ IsKind shapes close head .signature) := by
  cases h with
  | whole hshape hwhole => exact ⟨_, _, rfl, Or.inl ⟨rfl, _, hshape, hwhole⟩⟩
  | parts hshape hsignature => exact ⟨_, _, rfl, Or.inr ⟨rfl, _, hshape, hsignature⟩⟩

theorem isKind (h : StandsAtFront shapes close lines n) :
    ∀ line ∈ lines.take n, ∃ kind, IsKind shapes close line kind := by
  cases h with
  | whole hshape hwhole => exact List.forall_mem_singleton.mpr ⟨.whole, _, hshape, hwhole⟩
  | parts hshape hsignature hbody hclose =>
    simp only [List.take_succ_cons, List.take_zero, List.forall_mem_cons]
    exact ⟨⟨.signature, _, hshape, hsignature⟩, ⟨.body, _, hshape, hbody⟩, ⟨.close, hclose⟩,
      fun _ hnone => absurd hnone List.not_mem_nil⟩

theorem unique (hkinds : Unmistakable shapes close) (h : StandsAtFront shapes close lines n)
    (h' : StandsAtFront shapes close lines n') : n = n' := by
  obtain ⟨head, rest, rfl, hhead⟩ := h.exists_head
  obtain ⟨head', rest', heq, hhead'⟩ := h'.exists_head
  obtain ⟨rfl, rfl⟩ := List.cons.inj heq
  rcases hhead with ⟨rfl, hkind⟩ | ⟨rfl, hkind⟩ <;> rcases hhead' with ⟨rfl, hkind'⟩ | ⟨rfl, hkind'⟩
  · rfl
  · cases hkinds _ _ _ hkind hkind'
  · cases hkinds _ _ _ hkind hkind'
  · rfl

theorem not_of_kind (hkinds : Unmistakable shapes close) {head : List Char} {rest : List (List Char)}
    {kind : Kind} (hkind : IsKind shapes close head kind) (hwhole : kind ≠ .whole)
    (hsignature : kind ≠ .signature) : ¬ StandsAtFront shapes close (head :: rest) n := by
  intro h
  obtain ⟨head', rest', heq, hhead⟩ := h.exists_head
  obtain ⟨rfl, rfl⟩ := List.cons.inj heq
  rcases hhead with ⟨-, hkind'⟩ | ⟨-, hkind'⟩
  · exact hwhole (hkinds _ _ _ hkind hkind')
  · exact hsignature (hkinds _ _ _ hkind hkind')

/-- The second and the third line of an accessor start none. -/
theorem not_inside (hkinds : Unmistakable shapes close) (h : StandsAtFront shapes close lines n)
    {j : Nat} (hpos : 0 < j) (hlt : j < n) : ¬ StandsAtFront shapes close (lines.drop j) n' := by
  cases h with
  | whole => omega
  | parts hshape _ hbody hclose =>
    obtain rfl | rfl : j = 1 ∨ j = 2 := by omega
    · have hkind : IsKind shapes close _ .body := ⟨_, hshape, hbody⟩
      exact not_of_kind hkinds hkind (by decide) (by decide)
    · have hkind : IsKind shapes close _ .close := hclose
      exact not_of_kind hkinds hkind (by decide) (by decide)

/-- Two accessors are the same one, or one ends before the other starts. -/
theorem apart (hkinds : Unmistakable shapes close) {k k' : Nat}
    (h : StandsAtFront shapes close (lines.drop k) n)
    (h' : StandsAtFront shapes close (lines.drop k') n') :
    (k = k' ∧ n = n') ∨ k + n ≤ k' ∨ k' + n' ≤ k := by
  have hahead : ∀ {a b m m' : Nat}, StandsAtFront shapes close (lines.drop a) m →
      StandsAtFront shapes close (lines.drop b) m' → a < b → a + m ≤ b := by
    intro a b m m' ha hb hlt
    refine Nat.le_of_not_lt fun hover => ?_
    have hsplit : lines.drop b = (lines.drop a).drop (b - a) := by
      rw [List.drop_drop, Nat.add_sub_cancel' (Nat.le_of_lt hlt)]
    rw [hsplit] at hb
    exact ha.not_inside hkinds (by omega) (by omega) hb
  rcases Nat.lt_trichotomy k k' with hlt | rfl | hlt
  · exact Or.inr (Or.inl (hahead h h' hlt))
  · exact Or.inl ⟨rfl, h.unique hkinds h'⟩
  · exact Or.inr (Or.inr (hahead h' h hlt))

end StandsAtFront

/-! ## The scan -/

theorem standsAtFront_of_spanOf? {head : List Char} {rest : List Candidate} {shape : AccessorShape}
    (hshape : shape ∈ shapes) (h : spanOf? close head rest shape = some n) :
    StandsAtFront shapes close (head :: rest.map (·.2)) n := by
  rcases spanOf?_eq_one_or_three h with rfl | rfl
  · unfold spanOf? at h
    split at h
    · next hwhole => exact .whole hshape hwhole
    · split at h
      · split at h <;> cases h
      · cases h
  · obtain ⟨second, third, more, rfl, hsignature, hbody, hclose⟩ := spanOf?_eq_some_three h
    exact .parts hshape hsignature hbody hclose

theorem isSome_spanAt? {head : List Char} {rest : List Candidate}
    (h : StandsAtFront shapes close (head :: rest.map (·.2)) n) :
    (spanAt? shapes close head rest).isSome = true := by
  rw [spanAt?, List.findSome?_isSome_iff]
  unfold spanOf?
  generalize hlines : head :: rest.map (·.2) = lines at h
  cases h with
  | @whole shape head' rest' hshape hwhole =>
    obtain ⟨rfl, -⟩ := List.cons.inj hlines
    exact ⟨shape, hshape, by rw [if_pos hwhole]; rfl⟩
  | @parts shape head' body last rest' hshape hsignature hbody hclose =>
    obtain ⟨rfl, hrest⟩ := List.cons.inj hlines
    obtain ⟨second, behind, rfl, rfl, hbehind⟩ := List.map_eq_cons_iff.mp hrest
    obtain ⟨third, more, rfl, rfl, -⟩ := List.map_eq_cons_iff.mp hbehind
    refine ⟨shape, hshape, ?_⟩
    -- Were the signature an accessor of its own as well, that one would be found.
    split
    · rfl
    · simp only [hsignature, hbody, hclose, Bool.and_self, if_true, Option.isSome_some]

theorem spanAt?_eq_some_iff (hkinds : Unmistakable shapes close) {head : List Char}
    {rest : List Candidate} :
    spanAt? shapes close head rest = some n ↔
      StandsAtFront shapes close (head :: rest.map (·.2)) n := by
  have hsound : ∀ m, spanAt? shapes close head rest = some m →
      StandsAtFront shapes close (head :: rest.map (·.2)) m := by
    intro m hm
    obtain ⟨shape, hshape, hof⟩ := List.exists_of_findSome?_eq_some hm
    exact standsAtFront_of_spanOf? hshape hof
  refine ⟨hsound n, fun h => ?_⟩
  obtain ⟨m, hm⟩ := Option.isSome_iff_exists.mp (isSome_spanAt? h)
  rw [hm, (hsound m hm).unique hkinds h]

/-- An accessor stands at the place, and the window holds the candidates that it takes up. -/
def TakesUp (shapes : List AccessorShape) (close : Pattern) (candidates : List Candidate) (k : Nat)
    (window : List Candidate) : Prop :=
  ∃ n, StandsAtFront shapes close ((candidates.map (·.2)).drop k) n ∧ window = (candidates.drop k).take n

theorem exists_takesUp_cons {c : Candidate} {rest window : List Candidate} {skip : Nat} :
    (∃ k, skip + 1 ≤ k ∧ TakesUp shapes close (c :: rest) k window) ↔
      ∃ k, skip ≤ k ∧ TakesUp shapes close rest k window := by
  constructor
  · rintro ⟨k, hk, h⟩
    cases k with
    | zero => omega
    | succ k => exact ⟨k, Nat.le_of_succ_le_succ hk, h⟩
  · rintro ⟨k, hk, h⟩
    exact ⟨k + 1, Nat.succ_le_succ hk, h⟩

/-- The scan finds an accessor wherever one stands. -/
theorem mem_windowsFrom_iff (hkinds : Unmistakable shapes close) {skip : Nat}
    {candidates window : List Candidate} :
    window ∈ windowsFrom shapes close skip candidates ↔
      ∃ k, skip ≤ k ∧ TakesUp shapes close candidates k window := by
  induction candidates generalizing skip with
  | nil =>
    simp only [windowsFrom, List.not_mem_nil, false_iff]
    rintro ⟨k, -, n, h, -⟩
    rw [List.map_nil, List.drop_nil] at h
    cases h
  | cons c rest ih =>
    cases skip with
    | succ skip => exact ih.trans exists_takesUp_cons.symm
    | zero =>
      rw [windowsFrom]
      split
      · next hnone =>
        rw [ih, ← exists_takesUp_cons]
        constructor
        · rintro ⟨k, -, h⟩
          exact ⟨k, Nat.zero_le k, h⟩
        · rintro ⟨k, -, n, hfront, hwindow⟩
          cases k with
          | zero => rw [(spanAt?_eq_some_iff hkinds).mpr hfront] at hnone; cases hnone
          | succ k => exact ⟨k + 1, Nat.succ_le_succ (Nat.zero_le k), n, hfront, hwindow⟩
      · next n hsome =>
        have hfirst : StandsAtFront shapes close ((c :: rest).map (·.2)) n :=
          (spanAt?_eq_some_iff hkinds).mp hsome
        obtain ⟨n, rfl⟩ := Nat.exists_eq_succ_of_ne_zero (Nat.ne_of_gt hfirst.pos)
        rw [List.mem_cons, ih, ← exists_takesUp_cons]
        constructor
        · rintro (rfl | ⟨k, -, h⟩)
          · exact ⟨0, Nat.le_refl 0, n + 1, hfirst, rfl⟩
          · exact ⟨k, Nat.zero_le k, h⟩
        · rintro ⟨k, -, n', hfront, hwindow⟩
          cases k with
          | zero =>
            obtain rfl := hfirst.unique hkinds hfront
            exact Or.inl hwindow
          | succ k =>
            have hk : n + 1 ≤ k + 1 := Nat.le_of_not_lt fun hlt =>
              hfirst.not_inside hkinds (Nat.succ_pos k) hlt hfront
            exact Or.inr ⟨k + 1, hk, n', hfront, hwindow⟩

/-- The line numbers found are those of all accessors. -/
theorem mem_positions_iff (hkinds : Unmistakable shapes close) {candidates : List Candidate} {i : Nat} :
    i ∈ positions shapes close candidates ↔
      ∃ k n, StandsAtFront shapes close ((candidates.map (·.2)).drop k) n ∧
        i ∈ ((candidates.map (·.1)).drop k).take n := by
  rw [positions_eq_flatten, List.mem_map]
  simp only [List.mem_flatten, windows, mem_windowsFrom_iff hkinds, ← List.map_drop, ← List.map_take,
    List.mem_map]
  constructor
  · rintro ⟨c, ⟨window, ⟨k, -, n, hfront, rfl⟩, hc⟩, rfl⟩
    rw [← List.map_drop] at hfront
    exact ⟨k, n, hfront, c, hc, rfl⟩
  · rintro ⟨k, n, hfront, c, hc, rfl⟩
    rw [List.map_drop] at hfront
    exact ⟨c, ⟨_, ⟨k, Nat.zero_le k, n, hfront, rfl⟩, hc⟩, rfl⟩

theorem isKind_of_mem_positions (hkinds : Unmistakable shapes close) {candidates : List Candidate} {i : Nat}
    (h : i ∈ positions shapes close candidates) :
    ∃ c ∈ candidates, c.1 = i ∧ ∃ kind, IsKind shapes close c.2 kind := by
  rw [positions_eq_flatten, List.mem_map] at h
  obtain ⟨c, hc, rfl⟩ := h
  obtain ⟨window, hwindow, hmem⟩ := List.mem_flatten.mp hc
  obtain ⟨k, -, n, hfront, rfl⟩ := (mem_windowsFrom_iff hkinds).mp hwindow
  refine ⟨c, List.mem_of_mem_drop (List.mem_of_mem_take hmem), rfl, hfront.isKind c.2 ?_⟩
  rw [← List.map_drop, ← List.map_take]
  exact List.mem_map_of_mem hmem

/-! ## Java -/

open Pattern (EndsIn closing closing_of_fitsLine endsIn_one fitsLine_iff)

/-- What the lines of a Java accessor end in. -/
def Kind.mark : Kind → Char
  | .whole => '\x7d'
  | .signature => '\x7b'
  | .body => ';'
  | .close => '\x7d'

theorem endsIn_java {shape : AccessorShape} (h : shape ∈ Language.java.accessorShapes) :
    EndsIn '\x7b' shape.signature ∧ EndsIn ';' shape.body := by
  simp only [Language.accessorShapes, Language.java, Option.toList_some, List.singleton_append,
    List.mem_cons, List.not_mem_nil, or_false] at h
  rcases h with rfl | rfl
  · exact ⟨.chain rfl (endsIn_one _), .chain rfl (endsIn_one _)⟩
  · exact ⟨.chain rfl (endsIn_one _), .chain rfl (endsIn_one _)⟩

theorem closing_of_isKind_java {line : List Char} {kind : Kind}
    (h : IsKind Language.java.accessorShapes Language.java.accessorClose line kind) :
    closing line = some kind.mark := by
  cases kind with
  | whole =>
    obtain ⟨shape, -, hwhole⟩ := h
    exact closing_of_fitsLine (.chain rfl (endsIn_one _)) (by decide) hwhole
  | signature =>
    obtain ⟨shape, hshape, hsignature⟩ := h
    exact closing_of_fitsLine (endsIn_java hshape).1 (by decide) hsignature
  | body =>
    obtain ⟨shape, hshape, hbody⟩ := h
    exact closing_of_fitsLine (endsIn_java hshape).2 (by decide) hbody
  | close => exact closing_of_fitsLine (endsIn_one _) (by decide) h

/-- A closing brace alone on its line is no accessor. -/
theorem not_isKind_whole_of_close_java {line : List Char}
    (h : IsKind Language.java.accessorShapes Language.java.accessorClose line .close) :
    ¬ IsKind Language.java.accessorShapes Language.java.accessorClose line .whole := by
  have hline : line = ['\x7d'] ∨ line = ['\x7d', '\n'] := by
    have hbrace : ∀ r, r ∈ Pattern.rests (.one (.char '\x7d')) line → line = '\x7d' :: r := by
      intro r hr
      cases line with
      | nil => exact absurd hr List.not_mem_nil
      | cons d s =>
        rw [Pattern.rests, Pattern.restsOne] at hr
        split at hr
        · next hd => rw [List.mem_singleton.mp hr, eq_of_beq hd]
        · exact absurd hr List.not_mem_nil
    rcases fitsLine_iff.mp h with hr | hr
    · exact Or.inl (hbrace _ hr)
    · exact Or.inr (hbrace _ hr)
  rcases hline with rfl | rfl
  · rintro ⟨shape, hshape, hwhole⟩
    revert shape
    decide +kernel
  · rintro ⟨shape, hshape, hwhole⟩
    revert shape
    decide +kernel

theorem Kind.eq_of_mark_eq {kind kind' : Kind} (h : kind.mark = kind'.mark) :
    kind = kind' ∨ (kind = .whole ∧ kind' = .close) ∨ (kind = .close ∧ kind' = .whole) := by
  cases kind <;> cases kind' <;> revert h <;> decide

theorem unmistakable_java : Unmistakable Language.java.accessorShapes Language.java.accessorClose := by
  intro line kind kind' h h'
  have hmark : kind.mark = kind'.mark :=
    Option.some.inj ((closing_of_isKind_java h).symm.trans (closing_of_isKind_java h'))
  rcases Kind.eq_of_mark_eq hmark with heq | ⟨rfl, rfl⟩ | ⟨rfl, rfl⟩
  · exact heq
  · exact absurd h (not_isKind_whole_of_close_java h')
  · exact absurd h' (not_isKind_whole_of_close_java h)

/-! ## A search by numbers -/

/-- The line of each candidate, the candidates given by their line numbers. -/
def linesAt (lines : List (List Char)) (numbers : List Nat) : List (List Char) :=
  numbers.map fun i => lines.getD i []

theorem mapM_numbers {numbers : List Nat} (h : ∀ i ∈ numbers, i < lines.length) :
    (numbers.mapM fun i => lines[i]?.map fun line => (i, line)) =
      some (numbers.map fun i => (i, lines.getD i [])) := by
  induction numbers with
  | nil => rfl
  | cons i numbers ih =>
    have hi : lines[i]? = some (lines.getD i []) := by
      rw [List.getD_eq_getElem?_getD, List.getElem?_eq_getElem (h i List.mem_cons_self),
        Option.getD_some]
    rw [List.mapM_cons, hi, ih fun j hj => h j (List.mem_cons_of_mem _ hj)]
    rfl

/-- Among candidates within the file the search succeeds, and the numbers it finds are exactly those of the
Java accessors: of each candidate that is one by itself, and of each three in a row that hold signature, body
and closing line of one shape.  Two of them are the same one or have no candidate in common. -/
theorem find_java_exact {candidates : List Nat} (h : ∀ i ∈ candidates, i < lines.length) :
    let Accessors := StandsAtFront Language.java.accessorShapes Language.java.accessorClose
    ∃ found, find .java lines candidates = .ok found ∧ found.Sublist candidates ∧
      (∀ i, i ∈ found ↔
        ∃ k n, Accessors ((linesAt lines candidates).drop k) n ∧ i ∈ (candidates.drop k).take n) ∧
      ∀ k k' n n', Accessors ((linesAt lines candidates).drop k) n →
        Accessors ((linesAt lines candidates).drop k') n' →
        (k = k' ∧ n = n') ∨ k + n ≤ k' ∨ k' + n' ≤ k := by
  intro Accessors
  have hnumbers : (candidates.map fun i => (i, lines.getD i [])).map (·.1) = candidates := by
    simp [Function.comp_def]
  have hlines : (candidates.map fun i => (i, lines.getD i [])).map (·.2) = linesAt lines candidates := by
    simp [Function.comp_def, linesAt]
  refine ⟨positions Language.java.accessorShapes Language.java.accessorClose
    (candidates.map fun i => (i, lines.getD i [])), ?_, ?_, fun i => ?_, ?_⟩
  · rw [find, mapM_numbers h]
    rfl
  · have hsublist : (positions Language.java.accessorShapes Language.java.accessorClose
        (candidates.map fun i => (i, lines.getD i []))).Sublist _ := positionsFrom_sublist 0 _
    rwa [hnumbers] at hsublist
  · rw [mem_positions_iff unmistakable_java, hnumbers, hlines]
  · intro k k' n n' hfront hfront'
    exact hfront.apart unmistakable_java hfront'

/-- A getter with a line between its parts that is no candidate, a line that is none, and a setter on one
line. -/
theorem find_java_exact_getter_setter :
    let lines := ["int getX() \x7b", "", "return x;", "\x7d", "x = 1;",
      "void setX(int y) \x7b x = y; \x7d"].map String.toList
    (∀ i ∈ [0, 2, 3, 4, 5], i < lines.length) ∧
      ∃ found, find .java lines [0, 2, 3, 4, 5] = .ok found ∧ ∀ i ∈ [0, 2, 3, 5], i ∈ found := by
  intro lines
  have hinside : ∀ i ∈ [0, 2, 3, 4, 5], i < lines.length := by decide
  obtain ⟨found, hfound, -, hmem, -⟩ := find_java_exact hinside
  have hgetter : StandsAtFront Language.java.accessorShapes Language.java.accessorClose
      ((linesAt lines [0, 2, 3, 4, 5]).drop 0) 3 :=
    .parts (List.mem_cons_self (a := Language.javaGetter)) (by decide +kernel) (by decide +kernel)
      (by decide +kernel)
  have hsetter : StandsAtFront Language.java.accessorShapes Language.java.accessorClose
      ((linesAt lines [0, 2, 3, 4, 5]).drop 4) 1 :=
    .whole (List.mem_cons_of_mem _ (List.mem_cons_self (a := Language.javaSetter)))
      (by decide +kernel)
  refine ⟨hinside, found, hfound, fun i hi => (hmem i).mpr ?_⟩
  by_cases hlast : i = 5
  · exact ⟨4, 1, hsetter, by simp [hlast]⟩
  · refine ⟨0, 3, hgetter, ?_⟩
    simp only [List.mem_cons, List.not_mem_nil, or_false] at hi
    simp only [List.drop_zero, List.take_succ_cons, List.take_zero, List.mem_cons]
    omega

end SourceCensus.Accessor
