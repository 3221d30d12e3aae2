import SourceCensus.Pattern

/-!
# The texts that a pattern describes

`Pattern.rests` says what a pattern leaves of a text, in the order in which a matcher tries it.  Most of the
time the order is of no account, and then a pattern is what the word says: a set of texts, `Pattern.Describes`.
A sequence describes the texts of its parts put together, a repetition any number of texts in a row, and what
stands around a text plays no part.

> A pattern that does not look ahead leaves `r` of a text exactly if the text is one of those it describes
> and `r` behind it (`mem_rests_iff`).

So a line fits a sequence of patterns exactly if it can be cut into texts of the parts, however greedy these
are (`fitsLine_iff_describes`, `describes_chain_cons`).  A repetition is given as many rounds as there are
characters, which is enough, because rounds that take nothing can be left out (`mem_restsStar`).

Two things can be read off a pattern itself: characters that stand in none of its texts (`avoids`), and
those that one of its texts may begin with (`mayStartWith`).
-/

set_option autoImplicit false

namespace SourceCensus.Pattern

variable {p q : Pattern} {s r w : List Char} {c : Char}

/-! ## Texts of a pattern -/

/-- One character that passes `test`. -/
def IsOne (test : Char → Bool) (w : List Char) : Prop := ∃ c, test c = true ∧ w = [c]

/-- Any number of texts in a row. -/
def IsRow (D : List Char → Prop) (w : List Char) : Prop := ∃ rounds : List (List Char),
  w = rounds.flatten ∧ ∀ u ∈ rounds, D u

/-- The text is one of those that the pattern describes, whatever follows it. -/
def Describes : Pattern → List Char → Prop
  | nothing, w => w = []
  | any, w => IsOne (· != '\n') w
  | one piece, w => IsOne piece.holds w
  | oneOf pieces, w => IsOne (fun c => pieces.any (·.holds c)) w
  | noneOf pieces, w => IsOne (fun c => !pieces.any (·.holds c)) w
  | notAhead _, w => w = []
  | seq p q, w => ∃ u v, w = u ++ v ∧ Describes p u ∧ Describes q v
  | alt p q, w => Describes p w ∨ Describes q w
  | star p, w => IsRow (Describes p) w
  | plus p, w => ∃ u v, w = u ++ v ∧ Describes p u ∧ IsRow (Describes p) v
  | opt p, w => Describes p w ∨ w = []

/-- Whether the pattern does without looking ahead. -/
def isPlain : Pattern → Bool
  | nothing | any | one _ | oneOf _ | noneOf _ => true
  | notAhead _ => false
  | seq p q | alt p q => isPlain p && isPlain q
  | star p | plus p | opt p => isPlain p

/-! ## What is left is what stands behind a text -/

theorem mem_restsOne_iff {test : Char → Bool} :
    r ∈ restsOne test s ↔ ∃ w, s = w ++ r ∧ IsOne test w := by
  constructor
  · intro h
    cases s with
    | nil => exact absurd h List.not_mem_nil
    | cons c s =>
      rw [restsOne] at h
      split at h
      · next hc =>
        obtain rfl := List.mem_singleton.mp h
        exact ⟨[c], rfl, c, hc, rfl⟩
      · exact absurd h List.not_mem_nil
  · rintro ⟨w, rfl, c, hc, rfl⟩
    simp [restsOne, hc]

theorem exists_of_mem_restsStar {step : List Char → List (List Char)} {D : List Char → Prop}
    (hstep : ∀ s r, r ∈ step s → ∃ w, s = w ++ r ∧ D w) {n : Nat} (h : r ∈ restsStar step n s) :
    ∃ w, s = w ++ r ∧ IsRow D w := by
  have hnone (s : List Char) : ∃ w, s = w ++ s ∧ IsRow D w :=
    ⟨[], rfl, [], rfl, fun _ hu => absurd hu List.not_mem_nil⟩
  induction n generalizing s with
  | zero =>
    obtain rfl := List.mem_singleton.mp h
    exact hnone r
  | succ n ih =>
    rcases List.mem_append.mp h with hround | hstop
    · obtain ⟨t, ht, hr⟩ := List.mem_flatMap.mp hround
      obtain ⟨u, rfl, hu⟩ := hstep s t ht
      obtain ⟨w, rfl, rounds, rfl, hrounds⟩ := ih hr
      refine ⟨u ++ rounds.flatten, (List.append_assoc ..).symm, u :: rounds, rfl, ?_⟩
      exact List.forall_mem_cons.mpr ⟨hu, hrounds⟩
    · obtain rfl := List.mem_singleton.mp hstop
      exact hnone r

theorem exists_of_mem_rests (h : r ∈ rests p s) : ∃ w, s = w ++ r ∧ Describes p w := by
  induction p generalizing s r with
  | nothing =>
    obtain rfl := List.mem_singleton.mp h
    exact ⟨[], rfl, rfl⟩
  | any | one | oneOf | noneOf => exact mem_restsOne_iff.mp h
  | notAhead p ih =>
    rw [rests] at h
    split at h
    · obtain rfl := List.mem_singleton.mp h
      exact ⟨[], rfl, rfl⟩
    · exact absurd h List.not_mem_nil
  | seq p q ihp ihq =>
    obtain ⟨t, ht, hr⟩ := List.mem_flatMap.mp h
    obtain ⟨u, rfl, hu⟩ := ihp ht
    obtain ⟨v, rfl, hv⟩ := ihq hr
    exact ⟨u ++ v, (List.append_assoc ..).symm, u, v, rfl, hu, hv⟩
  | alt p q ihp ihq =>
    rcases List.mem_append.mp h with hp | hq
    · obtain ⟨w, hs, hw⟩ := ihp hp
      exact ⟨w, hs, Or.inl hw⟩
    · obtain ⟨w, hs, hw⟩ := ihq hq
      exact ⟨w, hs, Or.inr hw⟩
  | star p ih => exact exists_of_mem_restsStar (fun _ _ => ih) h
  | plus p ih =>
    obtain ⟨t, ht, hr⟩ := List.mem_flatMap.mp h
    obtain ⟨u, rfl, hu⟩ := ih ht
    obtain ⟨v, rfl, hv⟩ := exists_of_mem_restsStar (fun _ _ => ih) hr
    exact ⟨u ++ v, (List.append_assoc ..).symm, u, v, rfl, hu, hv⟩
  | opt p ih =>
    rcases List.mem_append.mp h with hp | hnone
    · obtain ⟨w, hs, hw⟩ := ih hp
      exact ⟨w, hs, Or.inl hw⟩
    · obtain rfl := List.mem_singleton.mp hnone
      exact ⟨[], rfl, Or.inr rfl⟩

theorem isSuffix_of_mem_rests (h : r ∈ rests p s) : r <:+ s := by
  obtain ⟨w, rfl, -⟩ := exists_of_mem_rests h
  exact List.suffix_append w r

/-- Rounds that take a character each need no more rounds than there are characters, and the others can be
left out. -/
theorem mem_restsStar {step : List Char → List (List Char)} {D : List Char → Prop}
    (hstep : ∀ w r, D w → r ∈ step (w ++ r)) (h : IsRow D w) {n : Nat} (hn : w.length ≤ n) :
    r ∈ restsStar step n (w ++ r) := by
  obtain ⟨rounds, rfl, hrounds⟩ := h
  rw [← List.flatten_filter_ne_nil] at hn ⊢
  have hsolid : ∀ u ∈ rounds.filter (· ≠ []), u ≠ [] ∧ D u := fun u hu =>
    ⟨by simpa using (List.mem_filter.mp hu).2, hrounds u (List.mem_filter.mp hu).1⟩
  generalize rounds.filter (· ≠ []) = solid at hn hsolid
  induction solid generalizing n with
  | nil => cases n <;> simp [restsStar]
  | cons u solid ih =>
    rw [List.forall_mem_cons] at hsolid
    obtain ⟨⟨hne, hu⟩, hsolid⟩ := hsolid
    have hpos : 0 < u.length := List.length_pos_iff.mpr hne
    rw [List.flatten_cons, List.length_append] at hn
    obtain ⟨n, rfl⟩ : ∃ m, n = m + 1 := ⟨n - 1, by omega⟩
    rw [List.flatten_cons, List.append_assoc, restsStar]
    refine List.mem_append_left _ (List.mem_flatMap.mpr ⟨_, hstep u _ hu, ?_⟩)
    exact ih (by omega) hsolid

theorem mem_rests_of_describes (hp : p.isPlain = true) (h : Describes p w) : r ∈ rests p (w ++ r) := by
  induction p generalizing w r with
  | nothing =>
    obtain rfl : w = [] := h
    exact List.mem_singleton_self r
  | any | one | oneOf | noneOf => exact mem_restsOne_iff.mpr ⟨w, rfl, h⟩
  | notAhead p => cases hp
  | seq p q ihp ihq =>
    rw [isPlain, Bool.and_eq_true] at hp
    obtain ⟨u, v, rfl, hu, hv⟩ := h
    rw [List.append_assoc]
    exact List.mem_flatMap.mpr ⟨v ++ r, ihp hp.1 hu, ihq hp.2 hv⟩
  | alt p q ihp ihq =>
    rw [isPlain, Bool.and_eq_true] at hp
    rcases h with hw | hw
    · exact List.mem_append_left _ (ihp hp.1 hw)
    · exact List.mem_append_right _ (ihq hp.2 hw)
  | star p ih => exact mem_restsStar (fun _ _ => ih hp) h (by simp)
  | plus p ih =>
    obtain ⟨u, v, rfl, hu, hv⟩ := h
    rw [List.append_assoc]
    exact List.mem_flatMap.mpr ⟨v ++ r, ih hp hu, mem_restsStar (fun _ _ => ih hp) hv (by simp)⟩
  | opt p ih =>
    rcases h with hw | rfl
    · exact List.mem_append_left _ (ih hp hw)
    · exact List.mem_append_right _ (List.mem_singleton_self r)

theorem mem_rests_iff (hp : p.isPlain = true) : r ∈ rests p s ↔ ∃ w, s = w ++ r ∧ Describes p w := by
  refine ⟨exists_of_mem_rests, ?_⟩
  rintro ⟨w, rfl, hw⟩
  exact mem_rests_of_describes hp hw

theorem fitsLine_iff : fitsLine p s = true ↔ [] ∈ rests p s ∨ ['\n'] ∈ rests p s := by
  have hdone (r : List Char) : (lineDone r).isSome = true ↔ r = [] ∨ r = ['\n'] := by
    simp [lineDone]
  rw [fitsLine, run_eq_findSome?, List.isSome_findSome?, List.any_eq_true]
  simp only [hdone]
  constructor
  · rintro ⟨r, hr, rfl | rfl⟩
    · exact Or.inl hr
    · exact Or.inr hr
  · rintro (hr | hr)
    · exact ⟨[], hr, Or.inl rfl⟩
    · exact ⟨['\n'], hr, Or.inr rfl⟩

theorem fitsLine_iff_describes (hp : p.isPlain = true) (hs : '\n' ∉ s) :
    fitsLine p s = true ↔ Describes p s := by
  rw [fitsLine_iff, mem_rests_iff hp, mem_rests_iff hp]
  constructor
  · rintro (⟨w, rfl, hw⟩ | ⟨w, rfl, -⟩)
    · rwa [List.append_nil]
    · simp at hs
  · exact fun h => Or.inl ⟨s, (List.append_nil s).symm, h⟩

/-! ## Sequences and repetitions -/

theorem describes_chain_cons {ps : List Pattern} :
    Describes (chain (p :: ps)) w ↔ ∃ u v, w = u ++ v ∧ Describes p u ∧ Describes (chain ps) v := by
  cases ps with
  | nil =>
    constructor
    · exact fun h => ⟨w, [], (List.append_nil w).symm, h, rfl⟩
    · rintro ⟨u, v, rfl, hu, rfl⟩
      rwa [List.append_nil]
  | cons q ps => exact Iff.rfl

/-- A repeated character makes up the texts of such characters. -/
theorem isRow_isOne_iff {test : Char → Bool} : IsRow (IsOne test) w ↔ ∀ c ∈ w, test c = true := by
  constructor
  · rintro ⟨rounds, rfl, hrounds⟩ c hc
    obtain ⟨u, hu, hcu⟩ := List.mem_flatten.mp hc
    obtain ⟨d, hd, rfl⟩ := hrounds u hu
    rwa [List.mem_singleton.mp hcu]
  · intro h
    refine ⟨w.map fun c => [c], ?_, fun u hu => ?_⟩
    · rw [← List.flatMap_def, List.flatMap_singleton']
    · obtain ⟨c, hc, rfl⟩ := List.mem_map.mp hu
      exact ⟨c, h c hc, rfl⟩

theorem describes_star_one {piece : Piece} :
    Describes (star (one piece)) w ↔ ∀ c ∈ w, piece.holds c = true := isRow_isOne_iff

theorem describes_plus_oneOf {pieces : List Piece} :
    Describes (plus (oneOf pieces)) w ↔ w ≠ [] ∧ ∀ c ∈ w, pieces.any (·.holds c) = true := by
  constructor
  · rintro ⟨_, v, rfl, ⟨c, hc, rfl⟩, hv⟩
    exact ⟨List.cons_ne_nil c v, List.forall_mem_cons.mpr ⟨hc, isRow_isOne_iff.mp hv⟩⟩
  · rintro ⟨hne, h⟩
    obtain ⟨c, v, rfl⟩ := List.exists_cons_of_ne_nil hne
    rw [List.forall_mem_cons] at h
    exact ⟨[c], v, rfl, ⟨c, h.1, rfl⟩, isRow_isOne_iff.mpr h.2⟩

theorem describes_text {t : List Char} : Describes (text t) w ↔ w = t := by
  have hone (c : Char) (w : List Char) : Describes (one (.char c)) w ↔ w = [c] := by
    constructor
    · rintro ⟨d, hd, rfl⟩
      rw [eq_of_beq hd]
    · rintro rfl
      exact ⟨c, beq_self_eq_true c, rfl⟩
  induction t generalizing w with
  | nil => exact Iff.rfl
  | cons c t ih =>
    cases t with
    | nil => exact hone c w
    | cons d t =>
      constructor
      · rintro ⟨u, v, rfl, hu, hv⟩
        rw [(hone c u).mp hu, ih.mp hv]
        rfl
      · rintro rfl
        exact ⟨[c], d :: t, rfl, (hone c [c]).mpr rfl, ih.mpr rfl⟩

/-! ## Characters of a pattern -/

/-- Whether the character stands in no text of the pattern. -/
def avoids (c : Char) : Pattern → Bool
  | nothing | notAhead _ => true
  | any => c == '\n'
  | one piece => !piece.holds c
  | oneOf pieces => !pieces.any (·.holds c)
  | noneOf pieces => pieces.any (·.holds c)
  | seq p q | alt p q => avoids c p && avoids c q
  | star p | plus p | opt p => avoids c p

theorem not_mem_of_isOne {test : Char → Bool} (hc : test c = false) (h : IsOne test w) : c ∉ w := by
  obtain ⟨d, hd, rfl⟩ := h
  intro hmem
  rw [← List.mem_singleton.mp hmem, hc] at hd
  cases hd

theorem not_mem_of_isRow {D : List Char → Prop} (hD : ∀ u, D u → c ∉ u) (h : IsRow D w) : c ∉ w := by
  obtain ⟨rounds, rfl, hrounds⟩ := h
  intro hmem
  obtain ⟨u, hu, hcu⟩ := List.mem_flatten.mp hmem
  exact hD u (hrounds u hu) hcu

theorem not_mem_of_avoids (hc : p.avoids c = true) (h : Describes p w) : c ∉ w := by
  induction p generalizing w with
  | nothing | notAhead =>
    obtain rfl : w = [] := h
    exact List.not_mem_nil
  | any => exact not_mem_of_isOne (by rw [eq_of_beq hc]; rfl) h
  | one piece => exact not_mem_of_isOne (Bool.not_eq_eq_eq_not.mp hc) h
  | oneOf pieces => exact not_mem_of_isOne (Bool.not_eq_eq_eq_not.mp hc) h
  | noneOf pieces => exact not_mem_of_isOne (congrArg not hc) h
  | seq p q ihp ihq =>
    rw [avoids, Bool.and_eq_true] at hc
    obtain ⟨u, v, rfl, hu, hv⟩ := h
    rw [List.mem_append, not_or]
    exact ⟨ihp hc.1 hu, ihq hc.2 hv⟩
  | alt p q ihp ihq =>
    rw [avoids, Bool.and_eq_true] at hc
    exact h.elim (ihp hc.1) (ihq hc.2)
  | star p ih => exact not_mem_of_isRow (fun _ => ih hc) h
  | plus p ih =>
    obtain ⟨u, v, rfl, hu, hv⟩ := h
    rw [List.mem_append, not_or]
    exact ⟨ih hc hu, not_mem_of_isRow (fun _ => ih hc) hv⟩
  | opt p ih =>
    rcases h with hw | rfl
    · exact ih hc hw
    · exact List.not_mem_nil

/-- Whether the empty text may be one of those of the pattern. -/
def mayBeEmpty : Pattern → Bool
  | nothing | notAhead _ | star _ | opt _ => true
  | any | one _ | oneOf _ | noneOf _ => false
  | seq p q => mayBeEmpty p && mayBeEmpty q
  | alt p q => mayBeEmpty p || mayBeEmpty q
  | plus p => mayBeEmpty p

/-- Whether a text of the pattern may begin with the character. -/
def mayStartWith (c : Char) : Pattern → Bool
  | nothing | notAhead _ => false
  | any => c != '\n'
  | one piece => piece.holds c
  | oneOf pieces => pieces.any (·.holds c)
  | noneOf pieces => !pieces.any (·.holds c)
  | seq p q => mayStartWith c p || mayBeEmpty p && mayStartWith c q
  | alt p q => mayStartWith c p || mayStartWith c q
  | star p | plus p | opt p => mayStartWith c p

theorem mayBeEmpty_of_describes (h : Describes p []) : p.mayBeEmpty = true := by
  induction p with
  | nothing | notAhead | star | opt => rfl
  | any | one | oneOf | noneOf =>
    obtain ⟨c, -, hnil⟩ := h
    cases hnil
  | seq p q ihp ihq =>
    obtain ⟨u, v, hnil, hu, hv⟩ := h
    obtain ⟨rfl, rfl⟩ := List.append_eq_nil_iff.mp hnil.symm
    rw [mayBeEmpty, ihp hu, ihq hv, Bool.and_self]
  | alt p q ihp ihq => exact Bool.or_eq_true_iff.mpr (h.imp ihp ihq)
  | plus p ih =>
    obtain ⟨u, v, hnil, hu, -⟩ := h
    obtain ⟨rfl, -⟩ := List.append_eq_nil_iff.mp hnil.symm
    exact ih hu

theorem exists_of_isRow_cons {D : List Char → Prop} (h : IsRow D (c :: w)) : ∃ v, D (c :: v) := by
  obtain ⟨rounds, hw, hrounds⟩ := h
  induction rounds with
  | nil => cases hw
  | cons u rounds ih =>
    rw [List.forall_mem_cons] at hrounds
    cases u with
    | nil => exact ih hw hrounds.2
    | cons d u =>
      obtain ⟨rfl, -⟩ := List.cons.inj hw
      exact ⟨u, hrounds.1⟩

theorem mayStartWith_of_describes (h : Describes p (c :: w)) : p.mayStartWith c = true := by
  induction p generalizing w with
  | nothing | notAhead => cases h
  | any | one | oneOf | noneOf =>
    obtain ⟨d, hd, hw⟩ := h
    obtain ⟨rfl, -⟩ := List.cons.inj hw
    exact hd
  | seq p q ihp ihq =>
    obtain ⟨u, v, hw, hu, hv⟩ := h
    rw [mayStartWith, Bool.or_eq_true, Bool.and_eq_true]
    cases u with
    | nil =>
      rw [List.nil_append] at hw
      exact Or.inr ⟨mayBeEmpty_of_describes hu, ihq (hw ▸ hv)⟩
    | cons d u =>
      obtain ⟨rfl, -⟩ := List.cons.inj hw
      exact Or.inl (ihp hu)
  | alt p q ihp ihq => exact Bool.or_eq_true_iff.mpr (h.imp ihp ihq)
  | star p ih =>
    obtain ⟨v, hv⟩ := exists_of_isRow_cons h
    exact ih hv
  | plus p ih =>
    obtain ⟨u, v, hw, hu, hv⟩ := h
    cases u with
    | nil =>
      rw [List.nil_append] at hw
      obtain ⟨v', hv'⟩ := exists_of_isRow_cons (hw ▸ hv)
      exact ih hv'
    | cons d u =>
      obtain ⟨rfl, -⟩ := List.cons.inj hw
      exact ih hu
  | opt p ih =>
    rcases h with hw | hw
    · exact ih hw
    · cases hw

end SourceCensus.Pattern
