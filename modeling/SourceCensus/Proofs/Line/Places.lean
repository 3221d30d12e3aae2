import SourceCensus.Line.Places
import SourceCensus.Proofs.Pattern.Rests

/-!
# Patterns and places

`Markers.verdict` tries the patterns that `Markers.ofLanguage` builds; `Language.verdict` looks at where
the markers stand.  On a line without a newline they say the same:

> the three patterns find the first delimiter, if it is free, the last opener that is, and the last closer.

Of the many ways to divide a line that a pattern allows, the matcher takes the best one, and for a
repetition in front that is the one that goes farthest.  So the closer found is the last one
(`span?_commentClose`), and the opener found is the last one that the characters in front of it allow
(`span?_commentOpen`).  For the start of a text block only the existence of a way matters
(`fits_textStart`), and if there is one, the first delimiter gives one.

The language needs a line comment marker, without which it has no patterns, and a text delimiter that is
not empty: an empty one would start a text block on an empty line, which does not count.
-/

set_option autoImplicit false

namespace SourceCensus

open Text (standsAt lastAt?)

theorem Language.startsText_iff (lang : Language) (line : List Char) :
    lang.startsText line = true ↔
      ∃ k ≤ line.length, standsAt lang.textDelimiter line k = true ∧ ∀ j < k,
        standsAt lang.lineComment line j = false ∧ standsAt lang.blockOpen line j = false := by
  have hfree (d : Nat) :
      ((List.range d).all fun j =>
        !standsAt lang.lineComment line j && !standsAt lang.blockOpen line j) = true ↔
      ∀ j < d, standsAt lang.lineComment line j = false ∧
        standsAt lang.blockOpen line j = false := by
    simp
  rw [startsText, Option.any_eq_true]
  simp only [hfree]
  constructor
  · rintro ⟨d, hd, hbefore⟩
    obtain ⟨hle, hstands, -⟩ := Text.firstAt?_eq_some_iff.mp hd
    exact ⟨d, hle, hstands, hbefore⟩
  · rintro ⟨k, hle, hstands, hbefore⟩
    -- What is free in front of any delimiter is free in front of the first one.
    obtain ⟨d, hdk, hd⟩ := Text.exists_firstAt?_le hle hstands
    exact ⟨d, hd, fun j hj => hbefore j (Nat.lt_of_lt_of_le hj hdk)⟩

namespace Markers

variable {lang : Language} {m : Markers} {line : List Char}

theorem ofLanguage_eq_ok_iff :
    ofLanguage lang = .ok m ↔
      ∃ glue, lang.lineComment.getLast? = some glue ∧ m = {
        lineComment := lang.lineComment
        textDelimiter := lang.textDelimiter
        textStart := textStartPattern lang.lineComment lang.blockOpen lang.textDelimiter
        commentOpen := commentOpenCapture lang.lineComment lang.blockOpen glue
        commentClose := commentCloseCapture lang.blockClose } := by
  unfold ofLanguage
  cases lang.lineComment.getLast? with
  | none => simp
  | some glue => simp [eq_comm]

/-! ## The start of a text block -/

theorem isEmpty_rests_comment (lineComment blockOpen : List Char) (j : Nat) :
    ((Pattern.alt (.text lineComment) (.text blockOpen)).rests (line.drop j)).isEmpty =
      (!standsAt lineComment line j && !standsAt blockOpen line j) := by
  rw [Pattern.rests, ← Pattern.isEmpty_rests_text, ← Pattern.isEmpty_rests_text]
  cases (Pattern.text lineComment).rests (line.drop j) <;> rfl

theorem fits_textStartPattern (hline : '\n' ∉ line) (lineComment blockOpen delimiter : List Char) :
    (textStartPattern lineComment blockOpen delimiter).fits line = true ↔
      ∃ k ≤ line.length, standsAt delimiter line k = true ∧ ∀ j < k,
        standsAt lineComment line j = false ∧ standsAt blockOpen line j = false := by
  have hbehind (k : Nat) :
      ((Pattern.seq (.text delimiter) (.star .any)).run (line.drop k) Pattern.done).isSome =
        standsAt delimiter line k := by
    rw [Pattern.run_seq, Pattern.run_text, standsAt]
    cases delimiter.isPrefixOf (line.drop k) with
    | true =>
      have hrest : '\n' ∉ (line.drop k).drop delimiter.length :=
        fun hmem => hline (List.mem_of_mem_drop (List.mem_of_mem_drop hmem))
      rw [if_pos rfl, Pattern.run_star_any (b := ()) hrest rfl]
      rfl
    | false => rfl
  change (Pattern.run (.seq _ (.seq (.text delimiter) (.star .any))) line Pattern.done).isSome
    = true ↔ _
  rw [Pattern.run_seq, Pattern.run_eq_findSome?, Pattern.rests_star_unless _ hline,
    List.isSome_findSome?, List.any_map, List.any_filter, List.any_eq_true]
  simp only [isEmpty_rests_comment, List.mem_reverse, List.mem_range, Nat.lt_succ_iff]
  simp [hbehind, and_comm]

theorem fits_textStart (h : ofLanguage lang = .ok m) (hline : '\n' ∉ line) :
    m.textStart.fits line = lang.startsText line := by
  obtain ⟨glue, -, rfl⟩ := ofLanguage_eq_ok_iff.mp h
  rw [Bool.eq_iff_iff, lang.startsText_iff]
  exact fits_textStartPattern hline _ _ _

/-! ## The opener and the closer of a block comment -/

/-- The first part of the opener's pattern leaves every place that allows an opener, the last one
first. -/
theorem rests_before_commentOpen {glue : Char} {s : List Char}
    (hglue : lang.lineComment.getLast? = some glue) (hs : '\n' ∉ s) :
    (commentOpenCapture lang.lineComment lang.blockOpen glue).before.rests s =
      ((List.range (s.length + 1)).reverse.filter (lang.allowsOpenerAt s)).map s.drop := by
  have hparts : (commentOpenCapture lang.lineComment lang.blockOpen glue).before.rests s =
      ((Pattern.star (.seq (.notAhead (.text lang.lineComment)) .any)).rests s).flatMap
        (Pattern.restsOne (· != glue)) ++ [s] := by
    simp [commentOpenCapture, Pattern.rests, Piece.holds, bne]
  -- The character at `k` is the one in front of the place `k + 1`.
  have hshift : ∀ k ∈ (List.range s.length).reverse,
      (s[k]?.any (· != glue) && (List.range k).all fun j => !standsAt lang.lineComment s j) =
        lang.allowsOpenerAt s (k + 1) := by
    intro k hk
    have hlt : k < s.length := by simpa using hk
    simp [Language.allowsOpenerAt, hglue, List.getElem?_eq_getElem hlt, bne]
  rw [hparts, Pattern.rests_star_unless _ hs, Pattern.flatMap_restsOne_map_drop,
    List.filter_filter]
  simp only [Pattern.isEmpty_rests_text]
  conv_lhs => rw [List.range_succ, List.reverse_concat, List.filter_cons]
  conv_rhs => rw [List.range_succ_eq_map, List.reverse_cons, List.filter_append, List.map_append,
    ← List.map_reverse, List.filter_map, List.map_map]
  rw [List.filter_congr hshift]
  simp [Function.comp_def, Language.allowsOpenerAt]

theorem span?_commentOpen (h : ofLanguage lang = .ok m) (hline : '\n' ∉ line) :
    m.commentOpen.span? line =
      (lang.lastOpener? line).map fun o => ⟨o, o + lang.blockOpen.length⟩ := by
  obtain ⟨glue, hglue, rfl⟩ := ofLanguage_eq_ok_iff.mp h
  exact Capture.span?_of_rests hline (rests_before_commentOpen hglue hline)

theorem span?_commentClose (h : ofLanguage lang = .ok m) (hline : '\n' ∉ line) :
    m.commentClose.span? line =
      (lastAt? lang.blockClose line).map fun c => ⟨c, c + lang.blockClose.length⟩ := by
  obtain ⟨glue, -, rfl⟩ := ofLanguage_eq_ok_iff.mp h
  have hrests : (Pattern.star .any).rests line =
      ((List.range (line.length + 1)).reverse.filter fun _ => true).map line.drop := by
    rw [Pattern.rests_star_any hline, List.filter_true]
  have hspan := Capture.span?_of_rests (w := lang.blockClose) hline hrests
  simp only [Bool.and_true] at hspan
  exact hspan

/-! ## The verdict -/

theorem verdictInComment_eq (h : ofLanguage lang = .ok m) (hline : '\n' ∉ line) :
    m.verdictInComment line = lang.verdictInComment line := by
  rw [verdictInComment, Language.verdictInComment, span?_commentClose h hline]
  cases lastAt? lang.blockClose line <;> rfl

theorem verdictAtOpener_eq (h : ofLanguage lang = .ok m) (hline : '\n' ∉ line) (o : Nat) :
    m.verdictAtOpener ⟨o, o + lang.blockOpen.length⟩ line = lang.verdictAtOpener o line := by
  rw [verdictAtOpener, Language.verdictAtOpener, span?_commentClose h hline]
  cases lastAt? lang.blockClose line <;> rfl

theorem verdictInCode_eq (h : ofLanguage lang = .ok m) (line : List Char) :
    m.verdictInCode line = lang.verdictInCode line := by
  obtain ⟨glue, -, rfl⟩ := ofLanguage_eq_ok_iff.mp h
  rfl

theorem verdictInText_eq (h : ofLanguage lang = .ok m) (line : List Char) :
    m.verdictInText line = lang.verdictInText line := by
  obtain ⟨glue, -, rfl⟩ := ofLanguage_eq_ok_iff.mp h
  rfl

/-- A line in which a text block starts is not empty, so it counts. -/
theorem verdictAtDelimiter_eq (hdelimiter : lang.textDelimiter ≠ [])
    (hstarts : lang.startsText line = true) :
    verdictAtDelimiter line = { counted := true, inText := true, region := .text } := by
  obtain ⟨k, -, hstands, -⟩ := (lang.startsText_iff line).mp hstarts
  have hline : line ≠ [] := by
    rintro rfl
    have hprefix : lang.textDelimiter <+: [] := by
      simpa [standsAt] using List.isPrefixOf_iff_prefix.mp hstands
    exact hdelimiter (List.prefix_nil.mp hprefix)
  cases line with
  | nil => exact absurd rfl hline
  | cons c line => rfl

/-- The verdict by patterns is the verdict by places. -/
theorem verdict_eq (h : ofLanguage lang = .ok m) (hdelimiter : lang.textDelimiter ≠ [])
    (hline : '\n' ∉ line) (strip : Bool) (region : Region) :
    m.verdict strip region line = lang.verdict strip region line := by
  cases region with
  | text => exact verdictInText_eq h line
  | comment => exact verdictInComment_eq h hline
  | code =>
    simp only [verdict, Language.verdict]
    rw [fits_textStart h hline]
    cases hstarts : lang.startsText line with
    | true => exact verdictAtDelimiter_eq hdelimiter hstarts
    | false =>
      rw [verdictInCode_eq h line, span?_commentOpen h hline]
      cases strip with
      | false => rfl
      | true =>
        cases lang.lastOpener? line with
        | none => rfl
        | some o => exact verdictAtOpener_eq h hline o

theorem verdicts_eq (h : ofLanguage lang = .ok m) (hdelimiter : lang.textDelimiter ≠ [])
    (strip : Bool) (region : Region) {lines : List (List Char)}
    (hlines : ∀ line ∈ lines, '\n' ∉ line) :
    m.verdicts strip region lines = lang.verdicts strip region lines := by
  induction lines generalizing region with
  | nil => rfl
  | cons line lines ih =>
    rw [List.forall_mem_cons] at hlines
    rw [verdicts, Language.verdicts, verdict_eq h hdelimiter hlines.1, ih _ hlines.2]

end Markers

end SourceCensus
