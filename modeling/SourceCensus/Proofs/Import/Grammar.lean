import Mathlib
import SourceCensus.Import
import SourceCensus.Language.Java
import SourceCensus.Proofs.Pattern.Describing
import SourceCensus.Proofs.Text.Trimming

/-!
# Which lines import

An import statement is recognized by a pattern with blanks on both sides, tried on a line that has lost its
newline characters, up to an end that may stand in front of another one.  What comes of it is a grammar that
knows of none of this:

> a line imports a name exactly if it is `import`, one space, the name and a semicolon, with any blanks around
> (`Import.ofLine?_java_eq_some_iff`).

No line is the statement of two names, because the blanks end where the `i` stands and the name ends where the
semicolon does (`Import.IsStatement.name_eq`).  So it is of no account that a matcher could cut a line
differently, and the newline characters count as blanks like any others (`Import.isStatement_dropNewlines_iff`).
-/

set_option autoImplicit false

namespace SourceCensus

open Pattern (Describes)

/-! ## Cutting a text by a capture -/

namespace Capture

variable {c : Capture} {accept : List Char → Option Unit} {s u v w left : List Char}

/-- The three texts are those of the parts of the capture. -/
structure Cuts (c : Capture) (u v w : List Char) : Prop where
  before : Describes c.before u
  middle : Describes c.middle v
  after : Describes c.after w

theorem find?_eq_findSome? (c : Capture) (accept : List Char → Option Unit) (s : List Char) :
    c.find? accept s =
      (c.before.rests s).findSome? fun atMiddle => (c.middle.rests atMiddle).findSome? fun behind =>
        (c.after.rests behind).findSome? fun left => (accept left).map fun _ => (atMiddle, behind) := by
  simp only [find?, Pattern.run_eq_findSome?]

theorem of_find?_eq_some {atMiddle behind : List Char}
    (h : c.find? accept s = some (atMiddle, behind)) :
    ∃ u v w left, c.Cuts u v w ∧ accept left = some () ∧
      s = u ++ atMiddle ∧ atMiddle = v ++ behind ∧ behind = w ++ left := by
  rw [find?_eq_findSome?] at h
  obtain ⟨m, hm, h⟩ := List.exists_of_findSome?_eq_some h
  obtain ⟨b, hb, h⟩ := List.exists_of_findSome?_eq_some h
  obtain ⟨left, hleft, h⟩ := List.exists_of_findSome?_eq_some h
  obtain ⟨⟨⟩, haccept, hpair⟩ := Option.map_eq_some_iff.mp h
  cases hpair
  obtain ⟨u, hs, hu⟩ := Pattern.exists_of_mem_rests hm
  obtain ⟨v, hv, hv'⟩ := Pattern.exists_of_mem_rests hb
  obtain ⟨w, hw, hw'⟩ := Pattern.exists_of_mem_rests hleft
  exact ⟨u, v, w, left, ⟨hu, hv', hw'⟩, haccept, hs, hv, hw⟩

/-- Whether no part of the capture looks ahead. -/
def isPlain (c : Capture) : Bool := c.before.isPlain && c.middle.isPlain && c.after.isPlain

theorem isSome_find? (hplain : c.isPlain = true) (hcuts : c.Cuts u v w)
    (haccept : (accept left).isSome = true) :
    (c.find? accept (u ++ (v ++ (w ++ left)))).isSome = true := by
  rw [isPlain, Bool.and_eq_true, Bool.and_eq_true] at hplain
  obtain ⟨⟨hbefore, hmiddle⟩, hafter⟩ := hplain
  rw [find?_eq_findSome?]
  simp only [List.findSome?_isSome_iff, Option.isSome_map]
  exact ⟨_, Pattern.mem_rests_of_describes hbefore hcuts.before,
    _, Pattern.mem_rests_of_describes hmiddle hcuts.middle,
    _, Pattern.mem_rests_of_describes hafter hcuts.after, haccept⟩

/-- The word of a line that ends in no newline lies between a text of the first part and one of the last. -/
theorem exists_cuts_of_word? (hs : s.getLast? ≠ some '\n') (h : c.word? s = some v) :
    ∃ u w, s = u ++ v ++ w ∧ c.Cuts u v w := by
  obtain ⟨⟨atMiddle, behind⟩, hfind, hv⟩ := Option.map_eq_some_iff.mp h
  obtain ⟨u, v', w, left, hcuts, haccept, rfl, rfl, rfl⟩ := of_find?_eq_some hfind
  obtain rfl : v' = v := by simpa using hv
  have hleft : left = [] := by
    rw [Pattern.lineDone] at haccept
    split at haccept
    · next hdone =>
      rw [Bool.or_eq_true, List.isEmpty_iff, beq_iff_eq] at hdone
      refine hdone.resolve_right fun hnewline => hs ?_
      simp [hnewline]
    · cases haccept
  exact ⟨u, w, by simp [hleft], hcuts⟩

theorem exists_word?_of_cuts (hplain : c.isPlain = true) (h : c.Cuts u v w) :
    ∃ v', c.word? (u ++ v ++ w) = some v' := by
  have hsome : (c.find? Pattern.lineDone (u ++ (v ++ (w ++ [])))).isSome = true :=
    isSome_find? hplain h rfl
  rw [List.append_nil, ← List.append_assoc] at hsome
  obtain ⟨found, hfound⟩ := Option.isSome_iff_exists.mp hsome
  exact ⟨_, by rw [word?, hfound]; rfl⟩

end Capture

namespace Import

/-! ## The grammar -/

/-- A letter, an underscore or a dot. -/
def isNameChar (c : Char) : Bool := c.isAlpha || c == '_' || c == '.'

/-- The line is an import statement of the name, with blanks around it. -/
structure IsStatement (line : List Char) (name : String) : Prop where
  ne_nil : name.toList ≠ []
  letters : ∀ c ∈ name.toList, isNameChar c = true
  exists_blanks : ∃ left right, (∀ c ∈ left, Text.isBlank c = true) ∧
    (∀ c ∈ right, Text.isBlank c = true) ∧
    line = left ++ "import ".toList ++ name.toList ++ ';' :: right

theorem holds_nameChar (c : Char) :
    ([.range 'a' 'z', .range 'A' 'Z', .char '_', .char '.'] : List Piece).any (·.holds c) =
      isNameChar c := by
  have hlower : Piece.holds (.range 'a' 'z') c = c.isLower := by
    simp [Piece.holds, Char.isLower, UInt32.le_iff_toNat_le]
  have hupper : Piece.holds (.range 'A' 'Z') c = c.isUpper := by
    simp [Piece.holds, Char.isUpper, UInt32.le_iff_toNat_le]
  rw [List.any_cons, List.any_cons, hlower, hupper, isNameChar, Char.isAlpha]
  simp [Piece.holds, Bool.or_left_comm, Bool.or_assoc]

/-- The pattern of a Java import cuts a line as the grammar does. -/
theorem cuts_javaImport_iff {u v w : List Char} :
    Language.javaImport.Cuts u v w ↔
      (∃ left, (∀ c ∈ left, Text.isBlank c = true) ∧ u = left ++ "import ".toList) ∧
      (v ≠ [] ∧ ∀ c ∈ v, isNameChar c = true) ∧
      ∃ right, (∀ c ∈ right, Text.isBlank c = true) ∧ w = ';' :: right := by
  have hbefore : Describes Language.javaImport.before u ↔
      ∃ left, (∀ c ∈ left, Text.isBlank c = true) ∧ u = left ++ "import ".toList := by
    constructor
    · rintro ⟨left, keyword, rfl, hleft, hkeyword⟩
      rw [Pattern.describes_text.mp hkeyword]
      exact ⟨left, Pattern.describes_star_one.mp hleft, rfl⟩
    · rintro ⟨left, hleft, rfl⟩
      exact ⟨left, _, rfl, Pattern.describes_star_one.mpr hleft, Pattern.describes_text.mpr rfl⟩
  have hmiddle : Describes Language.javaImport.middle v ↔ v ≠ [] ∧ ∀ c ∈ v, isNameChar c = true := by
    simp only [← holds_nameChar]
    exact Pattern.describes_plus_oneOf
  have hafter : Describes Language.javaImport.after w ↔
      ∃ right, (∀ c ∈ right, Text.isBlank c = true) ∧ w = ';' :: right := by
    constructor
    · rintro ⟨semicolon, right, rfl, hsemicolon, hright⟩
      rw [Pattern.describes_text.mp hsemicolon]
      exact ⟨right, Pattern.describes_star_one.mp hright, rfl⟩
    · rintro ⟨right, hright, rfl⟩
      exact ⟨[';'], right, rfl, Pattern.describes_text.mpr rfl, Pattern.describes_star_one.mpr hright⟩
  rw [← hbefore, ← hmiddle, ← hafter]
  exact ⟨fun h => ⟨h.before, h.middle, h.after⟩, fun h => ⟨h.1, h.2.1, h.2.2⟩⟩

variable {line : List Char} {name name' : String}

/-- The blanks at the front end at the keyword, and the name ends at the semicolon. -/
theorem IsStatement.toList_eq (h : IsStatement line name) :
    name.toList = ((Text.trimStart line).drop "import ".toList.length).takeWhile isNameChar := by
  obtain ⟨-, hname, left, right, hleft, -, rfl⟩ := h
  have hstart : Text.trimStart ("import ".toList ++ (name.toList ++ ';' :: right)) =
      "import ".toList ++ (name.toList ++ ';' :: right) := Text.trimStart_cons_of_not_isBlank (by decide)
  have hsemicolon : isNameChar ';' = false := by decide
  rw [List.append_assoc, List.append_assoc, Text.trimStart_blanks_append hleft, hstart, List.drop_left,
    List.takeWhile_append_of_pos hname, List.takeWhile_cons_of_neg (by simp [hsemicolon]),
    List.append_nil]

theorem IsStatement.name_eq (h : IsStatement line name) (h' : IsStatement line name') : name = name' :=
  String.toList_inj.mp (h.toList_eq.trans h'.toList_eq.symm)

/-! ## Newline characters -/

theorem isBlank_of_isNewline {c : Char} (h : isNewline c = true) : Text.isBlank c = true := by
  rcases (Bool.or_eq_true_iff.mp h).imp eq_of_beq eq_of_beq with rfl | rfl <;> rfl

theorem getLast?_dropNewlines (s : List Char) : (dropNewlines s).getLast? ≠ some '\n' := by
  induction s using List.reverseRecOn with
  | nil => simp [dropNewlines]
  | append_singleton s c ih =>
    rw [dropNewlines, ← List.rdropWhile, List.rdropWhile_concat]
    split
    · exact ih
    · next hc =>
      rw [List.getLast?_concat]
      intro h
      exact hc (by rw [Option.some.inj h]; rfl)

theorem dropNewlines_append {s t : List Char} (ht : ∀ c ∈ t, isNewline c = true) :
    dropNewlines (s ++ t) = dropNewlines s := by
  have hreverse : ∀ c ∈ t.reverse, isNewline c = true := by
    intro c hc
    exact ht c (List.mem_reverse.mp hc)
  rw [dropNewlines, List.reverse_append, List.dropWhile_append_of_pos hreverse, dropNewlines]

theorem dropNewlines_append_of_solid {s t : List Char} {c : Char} (hc : isNewline c = false) :
    dropNewlines (s ++ c :: t) = s ++ c :: dropNewlines t := Text.reverse_dropWhile_append_cons hc

/-- Newline characters at the end of a line are blanks behind the semicolon. -/
theorem isStatement_dropNewlines_iff : IsStatement (dropNewlines line) name ↔ IsStatement line name := by
  constructor
  · rintro ⟨hne, hname, left, right, hleft, hright, hline⟩
    refine ⟨hne, hname, left, right ++ line.rtakeWhile isNewline, hleft, ?_, ?_⟩
    · intro c hc
      rcases List.mem_append.mp hc with hc | hc
      · exact hright c hc
      · exact isBlank_of_isNewline (List.mem_rtakeWhile_imp hc)
    · have hsplit : dropNewlines line ++ line.rtakeWhile isNewline = line :=
        List.rdropWhile_append_rtakeWhile
      calc line
          = dropNewlines line ++ line.rtakeWhile isNewline := hsplit.symm
        _ = left ++ "import ".toList ++ name.toList ++ ';' :: (right ++ line.rtakeWhile isNewline) := by
            rw [hline, List.append_assoc, List.cons_append]
  · rintro ⟨hne, hname, left, right, hleft, hright, rfl⟩
    refine ⟨hne, hname, left, dropNewlines right, hleft, ?_, dropNewlines_append_of_solid (by decide)⟩
    intro c hc
    exact hright c ((List.rdropWhile_prefix isNewline right).subset hc)

/-! ## Lines and files -/

theorem ofLine?_java_eq_some_iff : ofLine? Language.java line = some name ↔ IsStatement line name := by
  have hsound {v : List Char} (h : Language.javaImport.word? (dropNewlines line) = some v) :
      IsStatement line (String.ofList v) := by
    obtain ⟨u, w, hline, hcuts⟩ := Capture.exists_cuts_of_word? (getLast?_dropNewlines line) h
    obtain ⟨⟨left, hleft, rfl⟩, ⟨hne, hv⟩, right, hright, rfl⟩ := cuts_javaImport_iff.mp hcuts
    refine isStatement_dropNewlines_iff.mp ⟨?_, ?_, left, right, hleft, hright, ?_⟩
    · rwa [String.toList_ofList]
    · rwa [String.toList_ofList]
    · simpa only [String.toList_ofList] using hline
  constructor
  · intro h
    obtain ⟨v, hv, rfl⟩ := Option.map_eq_some_iff.mp h
    exact hsound hv
  · intro h
    obtain ⟨hne, hname, left, right, hleft, hright, hline⟩ := isStatement_dropNewlines_iff.mpr h
    have hcuts : Language.javaImport.Cuts (left ++ "import ".toList) name.toList (';' :: right) :=
      cuts_javaImport_iff.mpr ⟨⟨left, hleft, rfl⟩, ⟨hne, hname⟩, right, hright, rfl⟩
    obtain ⟨v, hv⟩ := Capture.exists_word?_of_cuts (by decide) hcuts
    rw [← hline] at hv
    show (Language.javaImport.word? (dropNewlines line)).map String.ofList = some name
    rw [hv, Option.map_some, (hsound hv).name_eq h]

/-- The names are those of the statements among the lines, in order. -/
inductive Carries : List (List Char) → List String → Prop
  | nil : Carries [] []
  | statement {line : List Char} {name : String} {lines : List (List Char)} {names : List String} :
      IsStatement line name → Carries lines names → Carries (line :: lines) (name :: names)
  | other {line : List Char} {lines : List (List Char)} {names : List String} :
      (∀ name, ¬ IsStatement line name) → Carries lines names → Carries (line :: lines) names

/-- A line as it is written: a statement with blanks on both sides, or anything else. -/
inductive Item where
  | statement (left : List Char) (name : String) (right : List Char)
  | other (line : List Char)

namespace Item

def render : Item → List Char
  | statement left name right => left ++ "import ".toList ++ name.toList ++ ';' :: right
  | other line => line

def name? : Item → Option String
  | statement _ name _ => some name
  | other _ => none

/-- Statements are of the grammar, and the other lines are not. -/
def IsProper : Item → Prop
  | statement left name right => name.toList ≠ [] ∧ (∀ c ∈ name.toList, isNameChar c = true) ∧
      (∀ c ∈ left, Text.isBlank c = true) ∧ ∀ c ∈ right, Text.isBlank c = true
  | other line => ∀ name, ¬ IsStatement line name

end Item

theorem carries_iff {lines : List (List Char)} {names : List String} :
    Carries lines names ↔ ofLines Language.java lines = names := by
  have hother {line : List Char} : (∀ name, ¬ IsStatement line name) ↔ ofLine? Language.java line = none := by
    rw [Option.eq_none_iff_forall_ne_some]
    simp only [ne_eq, ofLine?_java_eq_some_iff]
  constructor
  · intro h
    induction h with
    | nil => rfl
    | statement hstatement _ ih =>
      rw [ofLines, List.filterMap_cons_some (ofLine?_java_eq_some_iff.mpr hstatement), ← ofLines, ih]
    | other hnone _ ih => rw [ofLines, List.filterMap_cons_none (hother.mp hnone), ← ofLines, ih]
  · rintro rfl
    induction lines with
    | nil => exact .nil
    | cons line lines ih =>
      cases hline : ofLine? Language.java line with
      | none =>
        rw [ofLines, List.filterMap_cons_none hline]
        exact .other (hother.mpr hline) ih
      | some name =>
        rw [ofLines, List.filterMap_cons_some hline]
        exact .statement (ofLine?_java_eq_some_iff.mp hline) ih

theorem carries_items {items : List Item} (h : ∀ item ∈ items, item.IsProper) :
    Carries (items.map Item.render) (items.filterMap Item.name?) := by
  induction items with
  | nil => exact .nil
  | cons item items ih =>
    rw [List.forall_mem_cons] at h
    cases item with
    | statement left name right =>
      obtain ⟨hne, hname, hleft, hright⟩ := h.1
      exact .statement ⟨hne, hname, left, right, hleft, hright, rfl⟩ (ih h.2)
    | other line => exact .other h.1 (ih h.2)

/-- The names that the lines of a Java file import are those of its import statements, in order, and names that
are written as import statements among other lines are read back. -/
theorem ofLines_java :
    (∀ lines names, ofLines Language.java lines = names ↔ Carries lines names) ∧
    ∀ items : List Item, (∀ item ∈ items, item.IsProper) →
      ofLines Language.java (items.map Item.render) = items.filterMap Item.name? := by
  constructor
  · intro lines names
    exact carries_iff.symm
  · intro items h
    exact carries_iff.mp (carries_items h)

example : ofLines Language.java (["\timport d.E;\r\n", "import a.b2.C;", "import a.b.C; // D",
    "import static a.B;", "\u3000import _.;\u2028\n"].map String.toList) = ["d.E", "_."] := by
  decide +kernel

end Import

end SourceCensus
