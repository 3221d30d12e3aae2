import SourceCensus.SourceFile

/-!
# What reading a file can come to

A file is read for its imports and for its counts, each time from the start.  All of that is decided by its
lines, and what the lines are is decided by what the system gives to read:

> a refusal gives no imports and a missing count of its kind (`imports_of_refused`, `measure_of_refused`),
> whatever was read before it; lines give imports and a count (`imports_of_lines`, `measure_of_lines`).

A missing count is a negative number and a count is not (`toInt_of_measure`).
-/

set_option autoImplicit false

namespace SourceCensus

theorem FailureKind.sentinel_neg (kind : FailureKind) : kind.sentinel < 0 := by
  cases kind <;> decide

/-- Counting fails only for want of a line comment marker. -/
theorem exists_countLines_eq_ok {lang : Language} (hcomment : lang.lineComment ≠ [])
    (mode : CountMode) (dropAccessors : Bool) (lines : List (List Char)) :
    ∃ n, countLines lang mode dropAccessors lines = .ok n := by
  have hmarkers := (Markers.ofLanguage_isOk_iff lang).mpr hcomment
  rw [countLines]
  cases hof : Markers.ofLanguage lang with
  | error d =>
    rw [hof] at hmarkers
    cases hmarkers
  | ok markers =>
    cases mode with
    | baseline => exact ⟨_, rfl⟩
    | enhanced => exact ⟨_, rfl⟩

/-- In every encoding nothing is an empty text. -/
theorem Encoding.decode_nil (e : Encoding) : e.decode [] = .ok [] := by
  cases e with
  | utf16 order => cases order <;> rfl
  | utf32 order => cases order <;> rfl
  | _ => rfl

namespace SourceFile

variable {fs fs' : FileSystem} {lang : Language} {encoding : Value} {p : Path}

/-! ## Lines -/

theorem decoder_congr (hcodec : fs.codec = fs'.codec) (name : String) :
    decoder fs name = decoder fs' name := by
  rw [decoder, decoder, hcodec]

theorem lines_congr (hcodec : fs.codec = fs'.codec) (h : fs.readSource p = fs'.readSource p) :
    lines fs encoding p = lines fs' encoding p := by
  cases encoding with
  | string name => rw [lines, lines, h, decoder_congr hcodec]
  | _ => rfl

/-- A file with nothing in it is read as an empty text in the encoding of the name. -/
def ReadsNothing (fs : FileSystem) (name : String) : Prop :=
  ∃ decode, decoder fs name = .ok decode ∧ decode [] true = .ok []

theorem lines_of_readsNothing {name : String} (hname : ReadsNothing fs name)
    (h : fs.readSource p = .ok {}) : lines fs (.string name) p = .ok [] := by
  obtain ⟨decode, hdecode, hnothing⟩ := hname
  rw [lines, h]
  simp only [hdecode, bind, Except.bind, Option.isNone_none, hnothing]
  rfl

section Known

variable {name : String} {e : Encoding} (hknown : Encoding.ofName? name = some e)

include hknown

theorem decoder_of_known : decoder fs name = .ok fun bytes _ => e.decode bytes := by
  rw [decoder, hknown]

/-- What was read is decoded first, and then it matters whether that was all. -/
theorem lines_of_readSource {content : Content} (h : fs.readSource p = .ok content) :
    lines fs (.string name) p = do
      let text ← e.decode content.bytes
      match content.broken with
      | some errno => .error (.refused ⟨errno, none⟩)
      | none => return Text.lines text := by
  rw [lines, h]
  simp only [decoder_of_known hknown]
  rfl

/-- The encodings that are known all read nothing as an empty text. -/
theorem readsNothing_of_known (fs : FileSystem) : ReadsNothing fs name :=
  ⟨_, decoder_of_known hknown, e.decode_nil⟩

end Known

/-- The system is asked only once the encoding is a text. -/
theorem exists_name_of_refused {e : OsError} (h : lines fs encoding p = .error (.refused e)) :
    ∃ name, encoding = .string name := by
  cases encoding with
  | string name => exact ⟨name, rfl⟩
  | _ => cases h

/-! ## Imports and counts -/

theorem imports_of_lines {read : List (List Char)} (h : lines fs encoding p = .ok read) :
    imports fs lang encoding p = .ok (.ok (Import.ofLines lang read)) := by
  rw [imports, h]

theorem imports_of_refused {e : OsError} (h : lines fs encoding p = .error (.refused e)) :
    imports fs lang encoding p = .ok (.error e) := by
  rw [imports, h]

theorem imports_of_defect {d : Defect} (hd : ∀ r, d ≠ .refused r)
    (h : lines fs encoding p = .error d) : imports fs lang encoding p = .error d := by
  rw [imports, h]
  cases d with
  | refused r => exact absurd rfl (hd r)
  | _ => rfl

theorem imports_congr (h : lines fs encoding p = lines fs' encoding p) :
    imports fs lang encoding p = imports fs' lang encoding p := by
  rw [imports, imports, h]

theorem countLinesOf_of_lines (options : CountOptions) {read : List (List Char)}
    (h : lines fs options.encoding p = .ok read) :
    countLinesOf fs lang options p = countLines lang options.mode options.excludeAccessors read := by
  rw [countLinesOf, h]
  rfl

theorem count_of_lines (options : CountOptions) {read : List (List Char)} {n : Nat}
    (h : lines fs options.encoding p = .ok read)
    (hn : countLines lang options.mode options.excludeAccessors read = .ok n) :
    count fs lang options p = .ok n := by
  rw [count, countLinesOf_of_lines options h, hn]

theorem measure_of_lines (options : CountOptions) {read : List (List Char)}
    (hcomment : lang.lineComment ≠ [])
    (h : lines fs options.encoding p = .ok read) :
    ∃ n : Nat, measure fs lang options p = .ok (.counted n) := by
  obtain ⟨n, hn⟩ := exists_countLines_eq_ok hcomment options.mode options.excludeAccessors read
  exact ⟨n, by rw [measure, countLinesOf_of_lines options h, hn]⟩

theorem measure_of_refused (options : CountOptions) {e : OsError}
    (h : lines fs options.encoding p = .error (.refused e)) :
    measure fs lang options p = .ok (.failed (.ofErrno e.errno)) := by
  have hcount : countLinesOf fs lang options p = .error (.refused e) := by
    rw [countLinesOf, h]
    rfl
  rw [measure, hcount]

theorem measure_of_defect (options : CountOptions) {d : Defect} (hd : ∀ r, d ≠ .refused r)
    (h : lines fs options.encoding p = .error d) : measure fs lang options p = .error d := by
  have hcount : countLinesOf fs lang options p = .error d := by
    rw [countLinesOf, h]
    rfl
  rw [measure, hcount]
  cases d with
  | refused r => exact absurd rfl (hd r)
  | _ => rfl

theorem measure_congr {options : CountOptions}
    (h : lines fs options.encoding p = lines fs' options.encoding p) :
    measure fs lang options p = measure fs' lang options p := by
  rw [measure, measure, countLinesOf, countLinesOf, h]

/-- A count that was taken is a number from zero on, and a missing one is negative. -/
theorem toInt_of_measure {options : CountOptions} {n : LineCount}
    (h : measure fs lang options p = .ok n) :
    n.toInt < 0 ↔ n.isOk = false := by
  rw [measure] at h
  split at h
  · cases h
    simp [LineCount.toInt, LineCount.isOk]
  · cases h
    simp [LineCount.toInt, LineCount.isOk, FailureKind.sentinel_neg]
  · cases h

end SourceFile

end SourceCensus
