import SourceCensus.Proofs.Accessor.Greedy
import SourceCensus.Proofs.Pattern.Describing
import SourceCensus.Proofs.Text.Trimming

/-!
# Accessors on one line

An accessor is looked for in two layouts: its three parts on three lines, or all of it on one.  The pattern
for one line is put together from those for the parts, with blanks allowed in between.  Whether a line that
fits it can be cut into the parts again is not plain from that, since a signature has blanks of its own, in
many places and in any number, and a matcher may give them to either side.  As sets of texts the patterns
leave no doubt:

> a line is an accessor by itself exactly if it is a signature, a body and a closing brace one behind the
> other, with blanks in between (`AccessorShape.isWhole_iff`).

The second half of the file is about the lines themselves.  Each kind of line of a Java accessor is code and
nothing else: there is no quote and no slash in it, so no text block and no comment can begin there, and no
blank at either end, so it is the same when trimmed (`isCodeLine_of_isKind_java`).
-/

set_option autoImplicit false

namespace SourceCensus

open Pattern (Describes)

/-! ## One line and three -/

namespace AccessorShape

variable {shape : AccessorShape} {t : List Char}

/-- The line `t` is the signature `s`, the body `b` and a closing brace, with blanks in between. -/
structure Joins (shape : AccessorShape) (s b t : List Char) : Prop where
  isSignature : shape.isSignature s = true
  isBody : shape.isBody b = true
  exists_blanks : ∃ w₁ w₂, (∀ c ∈ w₁, Text.isBlank c = true) ∧ (∀ c ∈ w₂, Text.isBlank c = true) ∧
    t = s ++ w₁ ++ b ++ w₂ ++ ['\x7d']

theorem Joins.not_mem {s b : List Char} {c : Char} (h : shape.Joins s b t) (hc : c ∉ t) : c ∉ s ∧ c ∉ b := by
  obtain ⟨w₁, w₂, -, -, rfl⟩ := h.exists_blanks
  simp only [List.mem_append, not_or] at hc
  exact ⟨hc.1.1.1.1, hc.1.1.2⟩

theorem describes_whole_iff :
    Describes (shape.whole (.one (.char '\x7d'))) t ↔
      ∃ s b w₁ w₂, Describes shape.signature s ∧ Describes shape.body b ∧
        (∀ c ∈ w₁, Text.isBlank c = true) ∧ (∀ c ∈ w₂, Text.isBlank c = true) ∧
        t = s ++ w₁ ++ b ++ w₂ ++ ['\x7d'] := by
  simp only [whole, Pattern.describes_chain_cons]
  constructor
  · rintro ⟨s, _, rfl, hs, w₁, _, rfl, hw₁, b, _, rfl, hb, w₂, _, rfl, hw₂, _, _, rfl, ⟨c, hc, rfl⟩, rfl⟩
    obtain rfl : c = '\x7d' := eq_of_beq hc
    exact ⟨s, b, w₁, w₂, hs, hb, Pattern.describes_star_one.mp hw₁, Pattern.describes_star_one.mp hw₂,
      by simp⟩
  · rintro ⟨s, b, w₁, w₂, hs, hb, hw₁, hw₂, rfl⟩
    exact ⟨s, w₁ ++ (b ++ (w₂ ++ ['\x7d'])), by simp, hs, w₁, _, rfl, Pattern.describes_star_one.mpr hw₁, b, _,
      rfl, hb, w₂, _, rfl, Pattern.describes_star_one.mpr hw₂, ['\x7d'], [], rfl, ⟨'\x7d', rfl, rfl⟩, rfl⟩

theorem isWhole_iff (hsignature : shape.signature.isPlain = true) (hbody : shape.body.isPlain = true)
    (ht : '\n' ∉ t) : shape.isWhole (.one (.char '\x7d')) t = true ↔ ∃ s b, shape.Joins s b t := by
  have hplain : (shape.whole (.one (.char '\x7d'))).isPlain = true := by
    simp [whole, Pattern.chain, Pattern.isPlain, hsignature, hbody]
  rw [isWhole, Pattern.fitsLine_iff_describes hplain ht, describes_whole_iff]
  constructor
  · rintro ⟨s, b, w₁, w₂, hs, hb, hw₁, hw₂, rfl⟩
    simp only [List.mem_append, not_or] at ht
    exact ⟨s, b, (Pattern.fitsLine_iff_describes hsignature ht.1.1.1.1).mpr hs,
      (Pattern.fitsLine_iff_describes hbody ht.1.1.2).mpr hb, w₁, w₂, hw₁, hw₂, rfl⟩
  · rintro ⟨s, b, hjoins⟩
    obtain ⟨hns, hnb⟩ := hjoins.not_mem ht
    obtain ⟨w₁, w₂, hw₁, hw₂, hjoined⟩ := hjoins.exists_blanks
    exact ⟨s, b, w₁, w₂, (Pattern.fitsLine_iff_describes hsignature hns).mp hjoins.isSignature,
      (Pattern.fitsLine_iff_describes hbody hnb).mp hjoins.isBody, hw₁, hw₂, hjoined⟩

end AccessorShape

/-! ## Lines of code -/

namespace Accessor

/-- Nothing but code can be meant by the line, and it is trimmed. -/
structure IsCodeLine (line : List Char) : Prop where
  ne_nil : line ≠ []
  no_quote : '"' ∉ line
  no_slash : '/' ∉ line
  trim_eq : Text.trim line = line

/-- The texts of the pattern are nothing but code, and they do not begin with a blank. -/
def isCode (p : Pattern) : Bool :=
  p.isPlain && !p.mayBeEmpty && p.avoids '"' && p.avoids '/' &&
    !Text.blankCodes.any fun n => p.mayStartWith (Char.ofNat n)

theorem isCodeLine_of_fitsLine {p : Pattern} (hp : isCode p = true) {line : List Char} (hline : '\n' ∉ line)
    (h : p.fitsLine line = true) {c : Char} (hlast : Pattern.closing line = some c)
    (hc : Text.isBlank c = false) : IsCodeLine line := by
  simp only [isCode, Bool.and_eq_true, Bool.not_eq_eq_eq_not, Bool.not_true] at hp
  obtain ⟨⟨⟨⟨hplain, hempty⟩, hquote⟩, hslash⟩, hblank⟩ := hp
  have hdescribes : Describes p line := (Pattern.fitsLine_iff_describes hplain hline).mp h
  refine ⟨?_, Pattern.not_mem_of_avoids hquote hdescribes, Pattern.not_mem_of_avoids hslash hdescribes,
    Text.trim_of_solid (fun d hd => ?_) fun d hd => ?_⟩
  · rintro rfl
    rw [Pattern.mayBeEmpty_of_describes hdescribes] at hempty
    cases hempty
  · obtain ⟨rest, rfl⟩ := List.head?_eq_some_iff.mp hd
    cases hsolid : Text.isBlank d with
    | false => rfl
    | true =>
      have hstart := Text.eq_false_of_isBlank (fun c => p.mayStartWith c) hblank hsolid
      rw [Pattern.mayStartWith_of_describes hdescribes] at hstart
      cases hstart
  · have hnewline : ¬ line.getLast? = some '\n' := fun hlast =>
      hline (List.mem_of_getLast? hlast)
    rw [Pattern.closing, if_neg hnewline, hd] at hlast
    rwa [Option.some.inj hlast]

/-- The patterns of the Java accessors, in all three layouts of a line. -/
theorem isCode_java : ∀ shape ∈ Language.java.accessorShapes, isCode shape.signature = true ∧
    isCode shape.body = true ∧ isCode (shape.whole Language.java.accessorClose) = true := by
  decide +kernel

theorem isPlain_java : ∀ shape ∈ Language.java.accessorShapes,
    shape.signature.isPlain = true ∧ shape.body.isPlain = true := by
  decide

theorem isCodeLine_of_isKind_java {line : List Char} {kind : Kind}
    (h : IsKind Language.java.accessorShapes Language.java.accessorClose line kind) (hline : '\n' ∉ line) :
    IsCodeLine line := by
  have hlast : Pattern.closing line = some kind.mark := closing_of_isKind_java h
  have hmark : Text.isBlank kind.mark = false := by cases kind <;> decide
  cases kind with
  | whole =>
    obtain ⟨shape, hshape, hwhole⟩ := h
    exact isCodeLine_of_fitsLine (isCode_java shape hshape).2.2 hline hwhole hlast hmark
  | signature =>
    obtain ⟨shape, hshape, hsignature⟩ := h
    exact isCodeLine_of_fitsLine (isCode_java shape hshape).1 hline hsignature hlast hmark
  | body =>
    obtain ⟨shape, hshape, hbody⟩ := h
    exact isCodeLine_of_fitsLine (isCode_java shape hshape).2.1 hline hbody hlast hmark
  | close => exact isCodeLine_of_fitsLine (p := .one (.char '\x7d')) (by decide) hline h hlast hmark

/-- The lines of a Java accessor are code, in either layout. -/
theorem isCodeLine_of_stands_java {lines : List (List Char)} (hlines : ∀ line ∈ lines, '\n' ∉ line)
    (h : StandsAtFront Language.java.accessorShapes Language.java.accessorClose lines lines.length) :
    ∀ line ∈ lines, IsCodeLine line := by
  intro line hline
  have htaken : line ∈ lines.take lines.length := by rwa [List.take_length]
  obtain ⟨kind, hkind⟩ := h.isKind line htaken
  exact isCodeLine_of_isKind_java hkind (hlines line hline)

end Accessor

end SourceCensus
