import SourceCensus.Proofs.Accessor.Greedy
import SourceCensus.Proofs.Count.Comments
import SourceCensus.Proofs.Count.Order

/-!
# Lines of comments only

A line can hold several block comments and nothing else.  No code stands in it, and it should not count.
Whether it does is decided at its last opener: what stands in front of that one is taken for code.  In a row
of comments these are the comments before the last one.  So a line with two comments counts, unless they
touch: `*//*` holds the marker of a line comment, and no opener behind that is seen.

> a line of comments only counts exactly when blanks stand in front of its second comment
> (`counts_comments_iff`).

A comment that has the line to itself does not count (`commentsInRow` without more), and neither does a row
that starts with two comments that touch.
-/

set_option autoImplicit false

namespace SourceCensus

open Text (standsAt lastAt?)

/-! ## Rows of comments -/

/-- A block comment around a text. -/
def commented (text : List Char) : List Char :=
  Language.java.blockOpen ++ text ++ Language.java.blockClose

/-- Block comments in a row: the text of the first, and for each further one the blanks in front of it and
its text. -/
def commentsInRow (first : List Char) (more : List (List Char × List Char)) : List Char :=
  commented first ++ more.flatMap fun c => c.1 ++ commented c.2

/-- A text that makes one complete comment. -/
structure IsRemark (text : List Char) : Prop where
  ne_nil : text ≠ []
  slash_not_mem : '/' ∉ text
  star_not_mem : '*' ∉ text

structure AreComments (first : List Char) (more : List (List Char × List Char)) : Prop where
  first : IsRemark first
  blanks : ∀ c ∈ more, ∀ b ∈ c.1, Text.isBlank b = true
  more : ∀ c ∈ more, IsRemark c.2

/-- There is a second comment, and blanks in front of it. -/
def Spaced : List (List Char × List Char) → Prop
  | [] => False
  | c :: _ => c.1 ≠ []

variable {text rest : List Char} {i : Nat}

/-! ## Characters of a comment -/

theorem commented_eq (text : List Char) : commented text = '/' :: '*' :: (text ++ ['*', '/']) := rfl

theorem length_commented (text : List Char) : (commented text).length = text.length + 4 := by
  simp [commented_eq]

theorem getElem?_behind_comment (j : Nat) :
    (commented text ++ rest)[text.length + 4 + j]? = rest[j]? := by
  rw [List.getElem?_append_right (by rw [length_commented]; omega), length_commented,
    Nat.add_sub_cancel_left]

theorem getElem?_end_of_comment : (commented text ++ rest)[text.length + 3]? = some '/' := by
  have hlast : commented text = ('/' :: '*' :: (text ++ ['*'])) ++ ['/'] := by simp [commented_eq]
  rw [hlast, List.append_assoc, List.getElem?_append_right (by simp)]
  simp

/-- A slash stands at the start of a comment, at its end or behind it. -/
theorem eq_zero_or_le_of_slash (htext : '/' ∉ text)
    (h : (commented text ++ rest)[i]? = some '/') : i = 0 ∨ text.length + 3 ≤ i := by
  match i with
  | 0 => exact Or.inl rfl
  | 1 => simp [commented_eq] at h
  | k + 2 =>
    refine Or.inr (Nat.le_of_not_lt fun hlt => ?_)
    simp only [commented_eq, List.cons_append, List.append_assoc, List.getElem?_cons_succ] at h
    by_cases hk : k < text.length
    · rw [List.getElem?_append_left hk] at h
      exact htext (List.mem_of_getElem? h)
    · obtain rfl : k = text.length := by omega
      simp at h

/-! ## Openers in a row of comments -/

theorem opensCommentAt_java_iff {s : List Char} :
    Language.java.opensCommentAt s i = true ↔
      (s[i]? = some '/' ∧ s[i + 1]? = some '*') ∧
        (i = 0 ∨ s[i - 1]? ≠ some '/' ∧
          ∀ j < i - 1, ¬ (s[j]? = some '/' ∧ s[j + 1]? = some '/')) := by
  have hopen : standsAt Language.java.blockOpen s i = true ↔
      s[i]? = some '/' ∧ s[i + 1]? = some '*' := Text.standsAt_pair_iff
  have hcomment (j : Nat) : standsAt Language.java.lineComment s j = true ↔
      s[j]? = some '/' ∧ s[j + 1]? = some '/' := Text.standsAt_pair_iff
  have hglue : Language.java.lineComment.getLast? = some '/' := rfl
  rw [Language.opensCommentAt, Bool.and_eq_true, hopen, Language.allowsOpenerAt, hglue]
  refine and_congr_right fun _ => ?_
  simp only [Bool.or_eq_true, beq_iff_eq, Bool.and_eq_true, bne_iff_ne, List.all_eq_true,
    List.mem_range, Bool.not_eq_true', ← Bool.not_eq_true, hcomment]

/-- Behind a comment that stands alone or touches the next one, no opener is seen. -/
theorem eq_zero_of_opensCommentAt (htext : '/' ∉ text) (hrest : rest ≠ [] → rest[0]? = some '/')
    (h : Language.java.opensCommentAt (commented text ++ rest) i = true) : i = 0 := by
  obtain ⟨⟨hslash, hstar⟩, hallowed⟩ := opensCommentAt_java_iff.mp h
  rcases eq_zero_or_le_of_slash htext hslash with hzero | hle
  · exact hzero
  rcases hallowed with hzero | ⟨hglue, hfree⟩
  · exact hzero
  exfalso
  obtain ⟨j, rfl⟩ := Nat.exists_eq_add_of_le hle
  cases j with
  | zero =>
    -- The closing slash opens nothing: what is behind it is no star.
    have hhead : rest[0]? = some '*' := by
      rw [← hstar, ← getElem?_behind_comment 0]
    cases rest with
    | nil => cases hhead
    | cons c r =>
      rw [hrest (List.cons_ne_nil c r)] at hhead
      cases hhead
  | succ j =>
    have hindex : text.length + 4 + j = text.length + 3 + (j + 1) := by omega
    rw [← hindex, getElem?_behind_comment] at hslash
    have hne : rest ≠ [] := by
      rintro rfl
      cases hslash
    have hsecond : (commented text ++ rest)[text.length + 3 + 1]? = some '/' := by
      rw [← hrest hne, ← getElem?_behind_comment 0]
    cases j with
    | zero => exact hglue getElem?_end_of_comment
    | succ j => exact hfree (text.length + 3) (by omega) ⟨getElem?_end_of_comment, hsecond⟩

/-- Behind blanks the opener of the second comment is seen. -/
theorem opensCommentAt_second {blanks text' rest' : List Char} (htext : '/' ∉ text) (hne : blanks ≠ [])
    (hblanks : ∀ b ∈ blanks, Text.isBlank b = true) :
    Language.java.opensCommentAt (commented text ++ (blanks ++ (commented text' ++ rest')))
      (text.length + 4 + blanks.length) = true := by
  have hlength : 0 < blanks.length := List.length_pos_iff.mpr hne
  have hopener (j : Nat) :
      (commented text ++ (blanks ++ (commented text' ++ rest')))[text.length + 4 + blanks.length + j]? =
        (commented text' ++ rest')[j]? := by
    rw [Nat.add_assoc, getElem?_behind_comment, List.getElem?_append_right (Nat.le_add_right _ _),
      Nat.add_sub_cancel_left]
  have hgap : ∀ j < blanks.length,
      (commented text ++ (blanks ++ (commented text' ++ rest')))[text.length + 4 + j]? ≠ some '/' := by
    intro j hj hslash
    rw [getElem?_behind_comment, List.getElem?_append_left hj] at hslash
    exact absurd (hblanks _ (List.mem_of_getElem? hslash)) (by decide)
  refine opensCommentAt_java_iff.mpr ⟨⟨?_, ?_⟩, Or.inr ⟨?_, ?_⟩⟩
  · exact (hopener 0).trans rfl
  · exact (hopener 1).trans rfl
  · have hlast := hgap (blanks.length - 1) (by omega)
    rwa [show text.length + 4 + (blanks.length - 1) = text.length + 4 + blanks.length - 1 by omega]
      at hlast
  · rintro j hj ⟨hslash, hslash'⟩
    rcases eq_zero_or_le_of_slash htext hslash with rfl | hle
    · simp [commented_eq] at hslash'
    · obtain ⟨k, rfl⟩ := Nat.exists_eq_add_of_le hle
      refine hgap k (by omega) ?_
      rwa [show text.length + 4 + k = text.length + 3 + k + 1 by omega]

/-! ## The end of a row of comments -/

section Row

variable {first : List Char} {more : List (List Char × List Char)}

theorem IsRemark.exists_end (h : IsRemark text) :
    ∃ front c, commented text = front ++ c :: Language.java.blockClose ∧ c ≠ '*' := by
  obtain ⟨init, c, rfl⟩ := (List.eq_nil_or_concat text).resolve_left h.ne_nil
  refine ⟨Language.java.blockOpen ++ init, c, by simp [commented], ?_⟩
  rintro rfl
  exact h.star_not_mem (by simp)

/-- The last closer has another character than its own in front of it. -/
theorem AreComments.exists_end (h : AreComments first more) :
    ∃ front c, commentsInRow first more = front ++ c :: Language.java.blockClose ∧ c ≠ '*' := by
  rcases List.eq_nil_or_concat more with rfl | ⟨init, last, rfl⟩
  · obtain ⟨front, c, hfront, hc⟩ := h.first.exists_end
    exact ⟨front, c, by simpa [commentsInRow] using hfront, hc⟩
  · obtain ⟨front, c, hfront, hc⟩ := (h.more last (by simp)).exists_end
    exact ⟨commentsInRow first init ++ last.1 ++ front, c, by simp [commentsInRow, hfront], hc⟩

/-- A row of comments closes at its end, and not right behind an opener. -/
theorem AreComments.lastAt? (h : AreComments first more) :
    ∃ c, lastAt? Language.java.blockClose (commentsInRow first more) = some c ∧
      c + Language.java.blockClose.length = (commentsInRow first more).length ∧
      ∀ o, standsAt Language.java.blockOpen (commentsInRow first more) o = true →
        c ≠ o + Language.java.blockOpen.length := by
  obtain ⟨front, c, hrow, hc⟩ := h.exists_end
  have hsplit : commentsInRow first more = (front ++ [c]) ++ Language.java.blockClose := by
    rw [hrow, List.append_assoc, List.singleton_append]
  refine ⟨(front ++ [c]).length, ?_, ?_, ?_⟩
  · rw [hsplit]
    exact Text.lastAt?_append (front ++ [c]) Language.java.blockClose
  · rw [hsplit, ← List.length_append]
  · intro o hopen heq
    have hlength : Language.java.blockOpen.length = 2 := rfl
    rw [List.length_append, List.length_singleton, hlength] at heq
    -- The star of such an opener would be the character in front of the closer.
    have hstar := (Text.standsAt_pair_iff (a := '/') (b := '*').mp hopen).2
    rw [show o + 1 = front.length by omega, hrow, List.getElem?_append_right (Nat.le_refl _),
      Nat.sub_self, List.getElem?_cons_zero] at hstar
    exact hc (Option.some.inj hstar)

/-! ## The verdict on a row of comments -/

theorem startsText_commentsInRow (first : List Char) (more : List (List Char × List Char)) :
    Language.java.startsText (commentsInRow first more) = false :=
  Language.startsText_java_of_opener rfl

theorem lastOpener?_of_not_spaced (h : AreComments first more) (hspaced : ¬ Spaced more) :
    Language.java.lastOpener? (commentsInRow first more) = some 0 := by
  refine (Language.lastOpener?_eq_some_iff _).mpr ⟨Nat.zero_le _, rfl, fun i hi _ => ?_⟩
  rw [Bool.eq_false_iff]
  intro hopens
  refine Nat.ne_of_gt hi (eq_zero_of_opensCommentAt h.first.slash_not_mem ?_ hopens)
  cases more with
  | nil => exact fun hne => absurd rfl hne
  | cons c more =>
    have htouch : c.1 = [] := by simpa [Spaced] using hspaced
    simp [htouch, commented_eq]

theorem exists_lastOpener?_of_spaced (h : AreComments first more) (hspaced : Spaced more) :
    ∃ o, 0 < o ∧ Language.java.lastOpener? (commentsInRow first more) = some o := by
  cases more with
  | nil => exact absurd hspaced (by simp [Spaced])
  | cons c more =>
    have hrow : commentsInRow first (c :: more) = commented first ++
        (c.1 ++ (commented c.2 ++ more.flatMap fun c => c.1 ++ commented c.2)) := by
      simp [commentsInRow]
    rw [hrow]
    have hopens : Language.java.opensCommentAt (commented first ++
        (c.1 ++ (commented c.2 ++ more.flatMap fun c => c.1 ++ commented c.2)))
        (first.length + 4 + c.1.length) = true :=
      opensCommentAt_second h.first.slash_not_mem hspaced (h.blanks c List.mem_cons_self)
    have hlength : first.length + 4 + c.1.length ≤ (commented first ++
        (c.1 ++ (commented c.2 ++ more.flatMap fun c => c.1 ++ commented c.2))).length := by
      simp only [List.length_append, length_commented]
      omega
    obtain ⟨o, hle, ho⟩ := Language.java.exists_lastOpener?_ge hlength hopens
    exact ⟨o, by omega, ho⟩

theorem verdict_of_not_spaced (h : AreComments first more) (hspaced : ¬ Spaced more) :
    Language.java.verdict true .code (commentsInRow first more) =
      { counted := false, inText := false, region := .code } := by
  obtain ⟨c, hclose, hend, hglued⟩ := h.lastAt?
  exact Language.verdict_opened_closed (startsText_commentsInRow first more) (lastOpener?_of_not_spaced
    h hspaced) hclose hend (by simpa using hglued 0 rfl)

theorem verdict_of_spaced (h : AreComments first more) (hspaced : Spaced more) :
    Language.java.verdict true .code (commentsInRow first more) =
      { counted := true, inText := false, region := .code } := by
  obtain ⟨c, hclose, -, hglued⟩ := h.lastAt?
  obtain ⟨o, hpos, hopen⟩ := exists_lastOpener?_of_spaced h hspaced
  have hstands : standsAt Language.java.blockOpen (commentsInRow first more) o = true := by
    obtain ⟨-, hopens, -⟩ := (Language.lastOpener?_eq_some_iff _).mp hopen
    rw [Language.opensCommentAt, Bool.and_eq_true] at hopens
    exact hopens.1
  simp [Language.verdict, startsText_commentsInRow first more, hopen, Language.verdictAtOpener, hclose,
    hglued o hstands, Nat.ne_of_gt hpos]

/-- The plain scan takes a row of comments for code. -/
theorem verdict_plain_commentsInRow :
    Language.java.verdict false .code (commentsInRow first more) =
      { counted := true, inText := false, region := .code } := by
  rw [Language.verdict, startsText_commentsInRow]
  rfl

theorem closing_commentsInRow (h : AreComments first more) :
    Pattern.closing (commentsInRow first more) = some '/' := by
  obtain ⟨front, c, hrow, -⟩ := h.exists_end
  have hsplit : commentsInRow first more = (front ++ [c, '*']) ++ ['/'] := by
    rw [hrow, List.append_assoc]
    rfl
  rw [hsplit, Pattern.closing, List.getLast?_concat, if_neg (by decide)]

end Row

/-! ## The count -/

section Count

variable {xs ys : List (List Char)} {raw first : List Char} {more : List (List Char × List Char)}

theorem not_mem_accessorLines (hraw : Text.trim raw = commentsInRow first more)
    (h : AreComments first more) :
    xs.length ∉ (Survey.ofLines .java (xs ++ raw :: ys)).accessorLines .java := by
  intro hmem
  obtain ⟨c, hc, hnumber, kind, hkind⟩ :=
    Accessor.isKind_of_mem_positions Accessor.unmistakable_java hmem
  obtain ⟨e, he, -, hline⟩ := Survey.mem_candidates.mp hc
  rw [hnumber, Survey.getElem?_ofLines] at he
  obtain rfl := Option.some.inj he
  have hmark := Accessor.closing_of_isKind_java hkind
  rw [hline, hraw, closing_commentsInRow h] at hmark
  cases kind <;> cases hmark

theorem shared_ofLines_counted {m : Markers}
    (hplain : m.verdict false (m.regionAfter false .code (xs.map Text.trim)) (Text.trim raw) =
      { counted := true, inText := false, region := m.regionAfter false .code (xs.map Text.trim) })
    (hstripping : m.verdict true (m.regionAfter true .code (xs.map Text.trim)) (Text.trim raw) =
      { counted := true, inText := false, region := m.regionAfter true .code (xs.map Text.trim) }) :
    (Survey.ofLines m (xs ++ raw :: ys)).shared = (Survey.ofLines m (xs ++ ys)).shared + 1 := by
  simp only [Survey.ofLines, Survey.ofLinesFrom_append, Survey.ofLinesFrom, hplain, hstripping,
    Survey.shared, List.countP_append, List.countP_cons, Surveyed.shared]
  simp only [Bool.and_self, if_true]
  omega

/-- Where both scans are in code, a line of block comments only, with nothing but blanks between them, is
counted by both exactly when blanks stand in front of its second comment; it is never part of an accessor.
If it is counted, the count with accessors is one more than without the line.  If it is not, the line makes
no difference to either enhanced count. -/
theorem counts_comments_iff
    (hplain : Markers.java.regionAfter false .code (xs.map Text.trim) = .code)
    (hstripping : Markers.java.regionAfter true .code (xs.map Text.trim) = .code)
    (hraw : Text.trim raw = commentsInRow first more) (hcomments : AreComments first more)
    (hline : '\n' ∉ Text.trim raw) :
    let s := Survey.ofLines .java (xs ++ raw :: ys)
    (∃ e, s[xs.length]? = some e ∧ (e.shared = true ↔ Spaced more)) ∧
    xs.length ∉ s.accessorLines .java ∧
    (Spaced more → ∃ n, countLines .java .enhanced false (xs ++ ys) = .ok n ∧
      countLines .java .enhanced false (xs ++ raw :: ys) = .ok (n + 1)) ∧
    (¬ Spaced more → ∀ dropAccessors, ∃ n, countLines .java .enhanced dropAccessors (xs ++ ys) = .ok n ∧
      countLines .java .enhanced dropAccessors (xs ++ raw :: ys) = .ok n) := by
  intro s
  have hplaces : ∀ strip, Markers.java.verdict strip .code (Text.trim raw) =
      Language.java.verdict strip .code (commentsInRow first more) := by
    intro strip
    rw [Markers.verdict_eq Markers.ofLanguage_java (by decide) hline, hraw]
  have hcounts := (hplaces false).trans verdict_plain_commentsInRow
  refine ⟨⟨_, Survey.getElem?_ofLines .java xs raw ys, ?_⟩, not_mem_accessorLines hraw hcomments, ?_, ?_⟩
  · rw [Surveyed.shared, hplain, hstripping, hcounts, hplaces]
    by_cases hspaced : Spaced more
    · simp [verdict_of_spaced hcomments hspaced, hspaced]
    · simp [verdict_of_not_spaced hcomments hspaced, hspaced]
  · intro hspaced
    refine ⟨_, countLines_java .enhanced false (xs ++ ys), ?_⟩
    rw [countLines_java]
    refine congrArg Except.ok (shared_ofLines_counted ?_ ?_)
    · rw [hplain, hcounts]
    · rw [hstripping, hplaces, verdict_of_spaced hcomments hspaced]
  · intro hspaced dropAccessors
    refine ⟨_, countLines_java .enhanced dropAccessors (xs ++ ys), ?_⟩
    have hunnoticed : Survey.Unnoticed .java .code .code .code [raw] := by
      have hverdict := verdict_of_not_spaced hcomments hspaced
      rw [← hraw] at hverdict
      exact .of_verdict_java hline (hraw ▸ startsText_commentsInRow first more) hverdict
    rw [countLines_java, ← List.singleton_append, ← List.append_assoc]
    refine congrArg Except.ok (Survey.enhanced_without ?_ dropAccessors)
    rw [hplain, hstripping]
    exact hunnoticed

theorem areComments_two : AreComments " a ".toList [([' '], " b ".toList)] where
  first := ⟨by decide, by decide, by decide⟩
  blanks := by
    intro c hc
    obtain rfl := List.mem_singleton.mp hc
    exact fun b hb => List.mem_singleton.mp hb ▸ rfl
  more := by
    intro c hc
    obtain rfl := List.mem_singleton.mp hc
    exact ⟨by decide, by decide, by decide⟩

/-- Behind a comment of two lines, a line of two comments with a blank between them counts. -/
theorem counts_comments_iff_two :
    let xs := ["/* why", "*/"].map String.toList
    let raw := "  /* a */ /* b */".toList
    let ys := ["int x;"].map String.toList
    Markers.java.regionAfter false .code (xs.map Text.trim) = .code ∧
      Markers.java.regionAfter true .code (xs.map Text.trim) = .code ∧
      Text.trim raw = commentsInRow " a ".toList [([' '], " b ".toList)] ∧ '\n' ∉ Text.trim raw ∧
      Spaced [([' '], " b ".toList)] ∧
      ∃ n, countLines .java .enhanced false (xs ++ ys) = .ok n ∧
        countLines .java .enhanced false (xs ++ raw :: ys) = .ok (n + 1) := by
  intro xs raw ys
  have hplain : Markers.java.regionAfter false .code (xs.map Text.trim) = .code := by decide +kernel
  have hstripping : Markers.java.regionAfter true .code (xs.map Text.trim) = .code := by decide +kernel
  have hraw : Text.trim raw = commentsInRow " a ".toList [([' '], " b ".toList)] := by decide +kernel
  have hline : '\n' ∉ Text.trim raw := by decide +kernel
  have hspaced : Spaced [([' '], " b ".toList)] := List.cons_ne_nil ' ' []
  exact ⟨hplain, hstripping, hraw, hline, hspaced,
    (counts_comments_iff hplain hstripping hraw areComments_two hline).2.2.1 hspaced⟩

/-- A file whose only line holds two comments and no code has a line of code. -/
theorem comments_taken_for_code :
    ∃ first more, AreComments first more ∧
      Text.trim "/* a */ /* b */".toList = commentsInRow first more ∧
      countLines .java .enhanced true ["/* a */ /* b */".toList] = .ok 1 :=
  ⟨" a ".toList, [([' '], " b ".toList)], areComments_two, by decide +kernel, by decide +kernel⟩

end Count

end SourceCensus
