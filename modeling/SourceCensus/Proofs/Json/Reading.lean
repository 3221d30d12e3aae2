import Mathlib.Data.List.TakeDrop
import SourceCensus.Json.Reader

/-!
# JSON read back

What is written as JSON is read as the same value:

> `read? (render v).toList = some v`, for a value without fractions and exponents (`Json.read?_render`).

The layout is skipped and an escape is undone, so the lemmas go along the grammar: code units, strings,
numbers, and values with whatever stands behind them.  Only a number is ended by what follows it
(`EndsNumber`); everything else has an end of its own.  The reader takes at most two steps for each
character, which is the measure of fuel here.
-/

set_option autoImplicit false

namespace SourceCensus.Json

/-! ## Code units -/

theorem hexDigit_mod (n : Nat) : Text.hexDigit (n % 16) = Text.hexDigit n := by
  simp [Text.hexDigit]

theorem hexValue?_hexDigit (n : Nat) : hexValue? (Text.hexDigit n) = some (n % 16) := by
  have hdigits : ∀ d < 16, hexValue? (Text.hexDigit d) = some d := by decide
  rw [← hexDigit_mod]
  exact hdigits _ (Nat.mod_lt n (by decide))

/-- Four digits are read as the number that they write. -/
theorem readUnit?_hexDigits {n : Nat} (h : n < 0x10000) (rest : List Char) :
    readUnit? (Text.hexDigits n 4 ++ rest) = some (n, rest) := by
  simp only [Text.hexDigits, List.nil_append, List.cons_append, readUnit?, hexValue?_hexDigit]
  simp only [bind, Option.bind, pure, Option.some.injEq, Prod.mk.injEq, and_true]
  omega

/-- A code unit that is no surrogate is a character of its own. -/
theorem ofUnit_toNat {c : Char} (h : c.toNat < 0x10000) (rest : List Char) :
    ofUnit c.toNat rest = (c, rest) := by
  have hvalid : c.toNat < 0xd800 ∨ 0xdfff < c.toNat ∧ c.toNat < 0x110000 := c.valid
  have hhigh : ¬ (0xd800 ≤ c.toNat ∧ c.toNat < 0xdc00) := by omega
  have hlow : ¬ (0xdc00 ≤ c.toNat ∧ c.toNat < 0xe000) := by omega
  simp [ofUnit, hhigh, hlow, Char.ofNat_toNat]

/-- A pair of surrogates is the character that was split. -/
theorem ofUnit_pair {c : Char} (h : 0x10000 ≤ c.toNat) (rest : List Char) :
    ofUnit (0xd800 + (c.toNat - 0x10000) / 0x400)
      (unitEscape (0xdc00 + (c.toNat - 0x10000) % 0x400) ++ rest) = (c, rest) := by
  have hvalid : c.toNat < 0xd800 ∨ 0xdfff < c.toNat ∧ c.toNat < 0x110000 := c.valid
  have hhigh : 0xd800 ≤ 0xd800 + (c.toNat - 0x10000) / 0x400 ∧
      0xd800 + (c.toNat - 0x10000) / 0x400 < 0xdc00 := by omega
  have hlow : 0xdc00 ≤ 0xdc00 + (c.toNat - 0x10000) % 0x400 ∧
      0xdc00 + (c.toNat - 0x10000) % 0x400 < 0xe000 := by omega
  have hnext : readNextUnit? (unitEscape (0xdc00 + (c.toNat - 0x10000) % 0x400) ++ rest) =
      some (0xdc00 + (c.toNat - 0x10000) % 0x400, rest) :=
    readUnit?_hexDigits (by omega) rest
  have hchar : 0x10000 + (0xd800 + (c.toNat - 0x10000) / 0x400 - 0xd800) * 0x400 +
      (0xdc00 + (c.toNat - 0x10000) % 0x400 - 0xdc00) = c.toNat := by omega
  simp only [ofUnit, hnext, hhigh, hlow, hchar, Char.ofNat_toNat, decide_true, Bool.and_self,
    if_true]

/-! ## Strings -/

theorem readChars?_unitEscape {n unit : Nat} (h : unit < 0x10000) (acc rest : List Char) :
    readChars? (n + 1) acc (unitEscape unit ++ rest) =
      readChars? n ((ofUnit unit rest).1 :: acc) (ofUnit unit rest).2 := by
  simp only [unitEscape, List.cons_append, readChars?, readUnit?_hexDigits h]
  simp

theorem readChars?_letter {d e : Char} (hd : d ≠ 'u') (h : ofLetter? d = some e) (n : Nat)
    (acc rest : List Char) : readChars? (n + 1) acc ('\\' :: d :: rest) = readChars? n (e :: acc) rest := by
  have hquote : ('\\' == '"') = false := by decide
  simp only [readChars?, hquote, h, BEq.rfl, Bool.false_eq_true, if_false, if_true]

/-- The four ways to write a character: by a letter, as it is, as one code unit, or as two. -/
theorem escapeChar_cases (c : Char) :
    (∃ d, d ≠ 'u' ∧ ofLetter? d = some c ∧ escapeChar c = ['\\', d]) ∨
    (c ≠ '"' ∧ c ≠ '\\' ∧ 0x20 ≤ c.toNat ∧ escapeChar c = [c]) ∨
    (c.toNat < 0x10000 ∧ escapeChar c = unitEscape c.toNat) ∨
    (0x10000 ≤ c.toNat ∧ escapeChar c =
      unitEscape (0xd800 + (c.toNat - 0x10000) / 0x400) ++
        unitEscape (0xdc00 + (c.toNat - 0x10000) % 0x400)) := by
  by_cases hc : c ∈ ['"', '\\', '\n', '\r', '\t', '\x0c', '\x08']
  · left
    simp only [List.mem_cons, List.not_mem_nil, or_false] at hc
    rcases hc with rfl | rfl | rfl | rfl | rfl | rfl | rfl
    · exact ⟨'"', by decide, rfl, rfl⟩
    · exact ⟨'\\', by decide, rfl, rfl⟩
    · exact ⟨'n', by decide, rfl, rfl⟩
    · exact ⟨'r', by decide, rfl, rfl⟩
    · exact ⟨'t', by decide, rfl, rfl⟩
    · exact ⟨'f', by decide, rfl, rfl⟩
    · exact ⟨'b', by decide, rfl, rfl⟩
  · simp only [List.mem_cons, List.not_mem_nil, or_false, not_or] at hc
    obtain ⟨hquote, hback, hline, hreturn, htab, hfeed, hbackspace⟩ := hc
    simp only [escapeChar, beq_iff_eq, hquote, hback, hline, hreturn, htab, hfeed, hbackspace,
      if_false]
    by_cases hplain : (decide (0x20 ≤ c.toNat) && decide (c.toNat ≤ 0x7e)) = true
    · rw [Bool.and_eq_true, decide_eq_true_eq] at hplain
      exact .inr (.inl ⟨hquote, hback, hplain.1, if_pos (by simpa using hplain)⟩)
    · rw [if_neg hplain]
      rcases Nat.lt_or_ge c.toNat 0x10000 with hunit | hunit
      · exact .inr (.inr (.inl ⟨hunit, if_pos hunit⟩))
      · exact .inr (.inr (.inr ⟨hunit, if_neg (Nat.not_lt.mpr hunit)⟩))

/-- One written character is read back in one step. -/
theorem readChars?_escapeChar (n : Nat) (acc : List Char) (c : Char) (rest : List Char) :
    readChars? (n + 1) acc (escapeChar c ++ rest) = readChars? n (c :: acc) rest := by
  rcases escapeChar_cases c with
    ⟨d, hd, hletter, htext⟩ | ⟨hquote, hback, hcontrol, htext⟩ | ⟨hunit, htext⟩ | ⟨hpair, htext⟩
  · rw [htext]
    exact readChars?_letter hd hletter n acc rest
  · rw [htext]
    simp only [List.cons_append, List.nil_append, readChars?, beq_iff_eq, hquote, hback,
      Nat.not_lt.mpr hcontrol, if_false]
  · rw [htext, readChars?_unitEscape hunit, ofUnit_toNat hunit]
  · have hvalid : c.toNat < 0xd800 ∨ 0xdfff < c.toNat ∧ c.toNat < 0x110000 := c.valid
    rw [htext, List.append_assoc, readChars?_unitEscape (by omega), ofUnit_pair hpair]

theorem readChars?_flatMap (cs : List Char) {n : Nat} (hn : cs.length < n) (acc rest : List Char) :
    readChars? n acc (cs.flatMap escapeChar ++ '"' :: rest) = some (acc.reverse ++ cs, rest) := by
  induction cs generalizing n acc with
  | nil =>
    obtain ⟨n, rfl⟩ := Nat.exists_eq_add_one.mpr hn
    simp [readChars?]
  | cons c cs ih =>
    obtain ⟨n, rfl⟩ := Nat.exists_eq_add_one.mpr (Nat.zero_lt_of_lt hn)
    rw [List.flatMap_cons, List.append_assoc, readChars?_escapeChar,
      ih (by simpa using hn)]
    simp

theorem escapeChar_ne_nil (c : Char) : escapeChar c ≠ [] := by
  rcases escapeChar_cases c with
    ⟨d, -, -, htext⟩ | ⟨-, -, -, htext⟩ | ⟨-, htext⟩ | ⟨-, htext⟩ <;> simp [htext, unitEscape]

theorem length_le_length_flatMap_escapeChar (cs : List Char) :
    cs.length ≤ (cs.flatMap escapeChar).length := by
  induction cs with
  | nil => simp
  | cons c cs ih =>
    have hc := List.length_pos_iff.mpr (escapeChar_ne_nil c)
    rw [List.flatMap_cons, List.length_append, List.length_cons]
    omega

/-- A written string is read back behind its opening quote. -/
theorem readString?_renderString (s : String) {n : Nat} (hn : (renderString s).length ≤ n)
    (rest : List Char) :
    readString? n (s.toList.flatMap escapeChar ++ '"' :: rest) = some (s, rest) := by
  have hlength := length_le_length_flatMap_escapeChar s.toList
  have hlt : s.toList.length < n := by
    simp only [renderString, List.length_cons, List.length_append] at hn
    omega
  simp [readString?, readChars?_flatMap s.toList hlt]

/-! ## Numbers -/

/-- The text begins with nothing that could belong to a number in front of it. -/
def EndsNumber (rest : List Char) : Prop :=
  ∀ c ∈ rest.head?, c.isDigit = false ∧ c ≠ '.' ∧ c ≠ 'e' ∧ c ≠ 'E'

theorem endsNumber_nil : EndsNumber [] := by
  intro c hc
  cases hc

theorem endsNumber_comma (rest : List Char) : EndsNumber (',' :: rest) := by
  intro c hc
  cases hc
  decide

theorem endsNumber_lineBreak (level : Nat) (rest : List Char) :
    EndsNumber (lineBreak level ++ rest) := by
  intro c hc
  cases hc
  decide

theorem spanDigits_append {ds rest : List Char} (hds : ∀ d ∈ ds, d.isDigit = true)
    (h : EndsNumber rest) : spanDigits (ds ++ rest) = (ds, rest) := by
  rw [spanDigits, List.span_eq_takeWhile_dropWhile, List.takeWhile_append_of_pos hds,
    List.dropWhile_append_of_pos hds]
  cases rest with
  | nil => simp
  | cons c rest =>
    have hc := (h c rfl).1
    simp [hc]

theorem readFraction?_of_endsNumber {rest : List Char} (h : EndsNumber rest) :
    readFraction? rest = some ([], rest) := by
  unfold readFraction?
  split
  · next rest => exact absurd rfl (h '.' rfl).2.1
  · rfl

theorem readExponent?_of_endsNumber {rest : List Char} (h : EndsNumber rest) :
    readExponent? rest = some ([], rest) := by
  cases rest with
  | nil => rfl
  | cons c rest =>
    obtain ⟨-, -, he, hE⟩ := h c rfl
    simp [readExponent?, he, hE]

/-- Only zero is written with a leading zero. -/
theorem head?_toDigits_ne {m : Nat} (hm : 0 < m) : (Nat.toDigits 10 m).head? ≠ some '0' := by
  induction m using Nat.strongRecOn with
  | _ m ih =>
    by_cases hlt : m < 10
    · have hdigits : ∀ d < 10, 0 < d → [Nat.digitChar d].head? ≠ some '0' := by decide
      rw [Nat.toDigits_of_lt_base hlt]
      exact hdigits m hlt hm
    · have hsplit : Nat.toDigits 10 m = Nat.toDigits 10 (m / 10) ++ Nat.toDigits 10 (m % 10) := by
        rw [Nat.toDigits_append_toDigits (by decide) (by omega) (Nat.mod_lt _ (by decide)),
          Nat.div_add_mod]
      have hhead := ih (m / 10) (by omega) (by omega)
      obtain ⟨d, ds, hds⟩ := List.exists_cons_of_ne_nil (Nat.toDigits_ne_nil (b := 10) (n := m / 10))
      rw [hsplit, hds]
      rwa [hds] at hhead

theorem readWhole?_toDigits (m : Nat) {rest : List Char} (h : EndsNumber rest) :
    readWhole? (Nat.toDigits 10 m ++ rest) = some (Nat.toDigits 10 m, rest) := by
  rcases Nat.eq_zero_or_pos m with rfl | hm
  · rfl
  · have hdigits : ∀ d ∈ Nat.toDigits 10 m, d.isDigit = true := fun d hd =>
      Nat.isDigit_of_mem_toDigits (by decide) (by decide) hd
    obtain ⟨d, ds, hds⟩ := List.exists_cons_of_ne_nil (Nat.toDigits_ne_nil (b := 10) (n := m))
    have hd : d ≠ '0' := by
      rintro rfl
      exact head?_toDigits_ne hm (by rw [hds]; rfl)
    unfold readWhole?
    split
    · next tail htail =>
      rw [hds] at htail
      exact absurd (List.cons.inj htail).1 hd
    · rw [spanDigits_append hdigits h, hds]
      rfl

theorem foldl_toDigits (m : Nat) :
    (Nat.toDigits 10 m).foldl (fun n c => n * 10 + (c.toNat - 0x30)) 0 = m := by
  have hfold := Nat.ofDigitChars_ten_toDigits (n := m)
  rw [Nat.ofDigitChars_eq_foldl] at hfold
  simpa only [Nat.mul_comm 10, Char.reduceToNat] using hfold

theorem readNumber?_natural (m : Nat) {rest : List Char} (h : EndsNumber rest) :
    readNumber? (Nat.toDigits 10 m ++ rest) = some (.int m, rest) := by
  obtain ⟨d, ds, hds⟩ := List.exists_cons_of_ne_nil (Nat.toDigits_ne_nil (b := 10) (n := m))
  have hdigit : d.isDigit = true :=
    Nat.isDigit_of_mem_toDigits (by decide) (by decide) (hds ▸ List.mem_cons_self)
  have hminus : d ≠ '-' := by
    rintro rfl
    exact absurd hdigit (by decide)
  have hwhole := readWhole?_toDigits m h
  have hvalue := foldl_toDigits m
  rw [hds, List.cons_append] at *
  unfold readNumber?
  split
  next negative body hsplit =>
    split at hsplit
    · next tail htail => exact absurd (List.cons.inj htail).1 hminus
    · cases hsplit
      simp [hwhole, readFraction?_of_endsNumber h, readExponent?_of_endsNumber h, hvalue]

theorem readNumber?_negative (m : Nat) {rest : List Char} (h : EndsNumber rest) :
    readNumber? ('-' :: Nat.toDigits 10 (m + 1) ++ rest) = some (.int (Int.negSucc m), rest) := by
  simp [readNumber?, readWhole?_toDigits (m + 1) h, readFraction?_of_endsNumber h,
    readExponent?_of_endsNumber h, foldl_toDigits, Int.negSucc_eq]

/-- A written whole number is read back. -/
theorem readNumber?_toString (n : Int) {rest : List Char} (h : EndsNumber rest) :
    readNumber? ((toString n).toList ++ rest) = some (.int n, rest) := by
  cases n with
  | ofNat m =>
    have htext : (toString (Int.ofNat m)).toList = Nat.toDigits 10 m := by
      simp [toString, Int.repr, Nat.repr]
    rw [htext]
    exact readNumber?_natural m h
  | negSucc m =>
    have htext : (toString (Int.negSucc m)).toList = '-' :: Nat.toDigits 10 (m + 1) := by
      simp [toString, Int.repr, Nat.repr]
    rw [htext]
    exact readNumber?_negative m h

/-! ## Layout -/

theorem skipLayout_lineBreak (level : Nat) (s : List Char) :
    skipLayout (lineBreak level ++ s) = skipLayout s := by
  have hspaces : ∀ k, skipLayout (List.replicate k ' ' ++ s) = skipLayout s := by
    intro k
    induction k with
    | zero => rfl
    | succ k ih =>
      rw [← ih]
      simp [skipLayout, List.replicate_succ]
  rw [← hspaces (2 * level)]
  simp [skipLayout, lineBreak]

theorem readValue?_lineBreak (n level : Nat) (s : List Char) :
    readValue? n (lineBreak level ++ s) = readValue? n s := by
  cases n with
  | zero => rfl
  | succ n => simp only [readValue?, skipLayout_lineBreak]

/-- The character is no layout. -/
def IsMark (c : Char) : Prop := c ≠ ' ' ∧ c ≠ '\n' ∧ c ≠ '\r' ∧ c ≠ '\t'

instance (c : Char) : Decidable (IsMark c) := inferInstanceAs (Decidable (_ ∧ _))

theorem skipLayout_of_isMark {c : Char} (h : IsMark c) (s : List Char) :
    skipLayout (c :: s) = c :: s := by
  obtain ⟨hspace, hline, hreturn, htab⟩ := h
  simp [skipLayout, hspace, hline, hreturn, htab]

theorem exists_toString_eq_cons (n : Int) :
    ∃ c tail, (toString n).toList = c :: tail ∧ (c = '-' ∨ c.isDigit = true) := by
  cases n with
  | ofNat m =>
    obtain ⟨d, ds, hds⟩ := List.exists_cons_of_ne_nil (Nat.toDigits_ne_nil (b := 10) (n := m))
    refine ⟨d, ds, by simpa [toString, Int.repr, Nat.repr] using hds, .inr ?_⟩
    exact Nat.isDigit_of_mem_toDigits (by decide) (by decide) (hds ▸ List.mem_cons_self)
  | negSucc m =>
    exact ⟨'-', Nat.toDigits 10 (m + 1), by simp [toString, Int.repr, Nat.repr], .inl rfl⟩

/-! ## Values -/

mutual

/-- No number in the value has a fraction or an exponent. -/
def isWhole : Json → Bool
  | null => true
  | bool _ => true
  | int _ => true
  | decimal _ => false
  | string _ => true
  | array items => areWhole items
  | object members => areWholeMembers members

def areWhole : List Json → Bool
  | [] => true
  | v :: rest => isWhole v && areWhole rest

def areWholeMembers : List (String × Json) → Bool
  | [] => true
  | (_, v) :: rest => isWhole v && areWholeMembers rest

end

theorem exists_bracketed_eq_cons (level : Nat) (opening closing : Char) (parts : List (List Char)) :
    ∃ tail, bracketed level opening closing parts = opening :: tail := by
  unfold bracketed
  split
  · exact ⟨_, rfl⟩
  · exact ⟨_, rfl⟩

/-- A written value begins with neither layout nor a closing bracket. -/
theorem exists_renderAt_eq_cons {v : Json} (h : v.isWhole = true) (level : Nat) :
    ∃ c tail, renderAt level v = c :: tail ∧ IsMark c ∧ c ≠ ']' := by
  cases v with
  | null => exact ⟨'n', "ull".toList, rfl, by decide⟩
  | bool b =>
    cases b with
    | true => exact ⟨'t', "rue".toList, rfl, by decide⟩
    | false => exact ⟨'f', "alse".toList, rfl, by decide⟩
  | int n =>
    obtain ⟨c, tail, htext, hc⟩ := exists_toString_eq_cons n
    refine ⟨c, tail, htext, ?_⟩
    rcases hc with rfl | hc
    · decide
    · refine ⟨⟨?_, ?_, ?_, ?_⟩, ?_⟩ <;> (rintro rfl; exact absurd hc (by decide))
  | decimal text => exact Bool.noConfusion h
  | string s => exact ⟨'"', _, rfl, by decide⟩
  | array items =>
    obtain ⟨tail, htext⟩ := exists_bracketed_eq_cons level '[' ']' (renderItems (level + 1) items)
    exact ⟨'[', tail, htext, by decide⟩
  | object members =>
    obtain ⟨tail, htext⟩ :=
      exists_bracketed_eq_cons level '\x7b' '\x7d' (renderMembers (level + 1) members)
    exact ⟨'\x7b', tail, htext, by decide⟩

theorem readValue?_int (n : Nat) (k : Int) {rest : List Char} (h : EndsNumber rest) :
    readValue? (n + 1) ((toString k).toList ++ rest) = some (.int k, rest) := by
  obtain ⟨c, tail, htext, hc⟩ := exists_toString_eq_cons k
  have hread := readNumber?_toString k h
  have hword : c ≠ ' ' ∧ c ≠ '\n' ∧ c ≠ '\r' ∧ c ≠ '\t' ∧ c ≠ '"' ∧ c ≠ '[' ∧ c ≠ '\x7b' ∧
      c ≠ 'n' ∧ c ≠ 't' ∧ c ≠ 'f' := by
    rcases hc with rfl | hc
    · decide
    · refine ⟨?_, ?_, ?_, ?_, ?_, ?_, ?_, ?_, ?_, ?_⟩ <;> (rintro rfl; exact absurd hc (by decide))
  rw [htext, List.cons_append] at *
  simp [readValue?, skipLayout, hword, hread]

theorem readValue?_string {n : Nat} {s : String} (hn : (renderString s).length ≤ n + 1)
    (rest : List Char) :
    readValue? (n + 1) (renderString s ++ rest) = some (.string s, rest) := by
  have hread := readString?_renderString s hn rest
  simp only [renderString, List.cons_append, List.append_assoc, List.nil_append]
  simp [readValue?, skipLayout, hread]

/-- An array whose text does not close at once is read element by element. -/
theorem readValue?_array {n : Nat} {s : List Char} (h : ∀ t, skipLayout s ≠ ']' :: t) :
    readValue? (n + 1) ('[' :: s) = (readItems? n s).map fun (vs, rest) => (.array vs, rest) := by
  have hopen : skipLayout ('[' :: s) = '[' :: s := skipLayout_of_isMark (by decide) s
  have hquote : ('[' == '"') = false := by decide
  simp only [readValue?, hopen, hquote, Bool.false_eq_true, BEq.rfl, if_false, if_true]

/-- An object whose text does not close at once is read member by member. -/
theorem readValue?_object {n : Nat} {s : List Char} (h : ∀ t, skipLayout s ≠ '\x7d' :: t) :
    readValue? (n + 1) ('\x7b' :: s) =
      (readMembers? n s).map fun (ms, rest) => (.object ms, rest) := by
  have hopen : skipLayout ('\x7b' :: s) = '\x7b' :: s := skipLayout_of_isMark (by decide) s
  have hquote : ('\x7b' == '"') = false := by decide
  have hbracket : ('\x7b' == '[') = false := by decide
  simp only [readValue?, hopen, hquote, hbracket, Bool.false_eq_true, BEq.rfl, if_false, if_true]

/-! ## Arrays, objects and what is in them -/

theorem length_join_cons (separator part : List Char) (parts : List (List Char)) :
    (join separator (part :: parts)).length =
      part.length + if parts = [] then 0 else separator.length + (join separator parts).length := by
  cases parts with
  | nil => simp [join]
  | cons next parts =>
    simp [join]

/-- A text between brackets is longer than its parts. -/
theorem length_bracketed (level : Nat) (opening closing : Char) {parts : List (List Char)}
    (h : parts ≠ []) :
    (join (',' :: lineBreak (level + 1)) parts).length + 2 ≤
      (bracketed level opening closing parts).length := by
  rw [bracketed, if_neg (by simpa using h)]
  simp only [List.length_append, List.length_cons, List.length_nil]
  omega

theorem bracketed_append {level : Nat} {opening closing : Char} {parts : List (List Char)}
    (h : parts ≠ []) (rest : List Char) :
    bracketed level opening closing parts ++ rest =
      opening :: (lineBreak (level + 1) ++ (join (',' :: lineBreak (level + 1)) parts ++
        (lineBreak level ++ closing :: rest))) := by
  rw [bracketed, if_neg (by simpa using h)]
  simp only [List.append_assoc, List.cons_append, List.nil_append]

theorem readItems?_lineBreak (n level : Nat) (s : List Char) :
    readItems? n (lineBreak level ++ s) = readItems? n s := by
  cases n with
  | zero => rfl
  | succ n => simp only [readItems?, readValue?_lineBreak]

theorem readMembers?_lineBreak (n level : Nat) (s : List Char) :
    readMembers? n (lineBreak level ++ s) = readMembers? n s := by
  cases n with
  | zero => rfl
  | succ n => simp only [readMembers?, skipLayout_lineBreak]

/-- The last element of an array. -/
theorem readItems?_last {n : Nat} {v : Json} {s behind rest : List Char}
    (h : readValue? n s = some (v, behind)) (hclose : skipLayout behind = ']' :: rest) :
    readItems? (n + 1) s = some ([v], rest) := by
  simp only [readItems?, h, hclose]

/-- An element of an array with others behind it. -/
theorem readItems?_comma {n : Nat} {v : Json} {s behind : List Char}
    (h : readValue? n s = some (v, ',' :: behind)) :
    readItems? (n + 1) s = (readItems? n behind).map fun (vs, rest) => (v :: vs, rest) := by
  have hcomma : skipLayout (',' :: behind) = ',' :: behind := skipLayout_of_isMark (by decide) _
  simp only [readItems?, h, hcomma]

theorem readValue?_space (n : Nat) (s : List Char) : readValue? n (' ' :: s) = readValue? n s := by
  cases n with
  | zero => rfl
  | succ n => simp [readValue?, skipLayout]

theorem skipLayout_colon (s : List Char) : skipLayout (": ".toList ++ s) = ':' :: ' ' :: s :=
  skipLayout_of_isMark (by decide) _

/-- The last member of an object. -/
theorem readMembers?_last {n : Nat} {key : String} (hn : (renderString key).length ≤ n + 1)
    {v : Json} {s behind rest : List Char} (h : readValue? n s = some (v, behind))
    (hclose : skipLayout behind = '\x7d' :: rest) :
    readMembers? (n + 1) (renderString key ++ ": ".toList ++ s) = some ([(key, v)], rest) := by
  have hread := readString?_renderString key hn (": ".toList ++ s)
  have hopen := skipLayout_of_isMark (c := '"') (by decide)
    (key.toList.flatMap escapeChar ++ '"' :: (": ".toList ++ s))
  simp only [renderString, List.cons_append, List.append_assoc, List.nil_append]
  simp only [readMembers?, hopen, hread, skipLayout_colon, readValue?_space, h, hclose]

/-- A member of an object with others behind it. -/
theorem readMembers?_comma {n : Nat} {key : String} (hn : (renderString key).length ≤ n + 1)
    {v : Json} {s behind : List Char} (h : readValue? n s = some (v, ',' :: behind)) :
    readMembers? (n + 1) (renderString key ++ ": ".toList ++ s) =
      (readMembers? n behind).map fun (ms, rest) => ((key, v) :: ms, rest) := by
  have hread := readString?_renderString key hn (": ".toList ++ s)
  have hopen := skipLayout_of_isMark (c := '"') (by decide)
    (key.toList.flatMap escapeChar ++ '"' :: (": ".toList ++ s))
  have hcomma : skipLayout (',' :: behind) = ',' :: behind := skipLayout_of_isMark (by decide) _
  simp only [renderString, List.cons_append, List.append_assoc, List.nil_append]
  simp only [readMembers?, hopen, hread, skipLayout_colon, readValue?_space, h, hcomma]

/-- The first part comes first. -/
theorem exists_join_eq_cons (separator : List Char) (c : Char) (part : List Char)
    (parts : List (List Char)) : ∃ tail, join separator ((c :: part) :: parts) = c :: tail := by
  cases parts <;> exact ⟨_, rfl⟩

theorem skipLayout_renderItems_ne {v : Json} (hv : v.isWhole = true) (items : List Json)
    (level : Nat) (rest t : List Char) :
    skipLayout (lineBreak level ++
      (join (',' :: lineBreak level) (renderItems level (v :: items)) ++ rest)) ≠ ']' :: t := by
  obtain ⟨c, part, htext, hmark, hc⟩ := exists_renderAt_eq_cons hv level
  obtain ⟨tail, hjoin⟩ :=
    exists_join_eq_cons (',' :: lineBreak level) c part (renderItems level items)
  rw [skipLayout_lineBreak, renderItems, htext, hjoin, List.cons_append,
    skipLayout_of_isMark hmark]
  intro heq
  exact hc (List.cons.inj heq).1

theorem skipLayout_renderMembers_ne (key : String) (v : Json) (members : List (String × Json))
    (level : Nat) (rest t : List Char) :
    skipLayout (lineBreak level ++
      (join (',' :: lineBreak level) (renderMembers level ((key, v) :: members)) ++ rest)) ≠
        '\x7d' :: t := by
  obtain ⟨tail, hjoin⟩ :=
    exists_join_eq_cons (',' :: lineBreak level) '"'
      (key.toList.flatMap escapeChar ++ ['"'] ++ ": ".toList ++ renderAt level v)
      (renderMembers level members)
  have hstart : join (',' :: lineBreak level) (renderMembers level ((key, v) :: members)) =
      '"' :: tail := hjoin
  rw [skipLayout_lineBreak, hstart, List.cons_append, skipLayout_of_isMark (by decide)]
  intro heq
  exact absurd (List.cons.inj heq).1 (by decide)

/-! ## All values

The reader goes one step of fuel down at each value, each element and each member, and so does the proof:
what `n` steps can read is said for all three at once. -/

/-- In `n` steps everything is read back that is written with at most half as many characters. -/
structure ReadsBack (n : Nat) : Prop where
  value : ∀ (v : Json) (level : Nat) (rest : List Char), v.isWhole = true →
    2 * (renderAt level v).length ≤ n → EndsNumber rest →
    readValue? n (renderAt level v ++ rest) = some (v, rest)
  items : ∀ (v : Json) (items : List Json) (level outer : Nat) (rest : List Char),
    areWhole (v :: items) = true →
    2 * (join (',' :: lineBreak level) (renderItems level (v :: items))).length < n →
    readItems? n (join (',' :: lineBreak level) (renderItems level (v :: items)) ++
      (lineBreak outer ++ ']' :: rest)) = some (v :: items, rest)
  members : ∀ (key : String) (v : Json) (members : List (String × Json)) (level outer : Nat)
    (rest : List Char), areWholeMembers ((key, v) :: members) = true →
    2 * (join (',' :: lineBreak level) (renderMembers level ((key, v) :: members))).length < n →
    readMembers? n (join (',' :: lineBreak level) (renderMembers level ((key, v) :: members)) ++
      (lineBreak outer ++ '\x7d' :: rest)) = some ((key, v) :: members, rest)

namespace ReadsBack

variable {n : Nat}

theorem value_succ (h : ReadsBack n) (v : Json) (level : Nat) (rest : List Char)
    (hv : v.isWhole = true) (hn : 2 * (renderAt level v).length ≤ n + 1) (hrest : EndsNumber rest) :
    readValue? (n + 1) (renderAt level v ++ rest) = some (v, rest) := by
  match v with
  | .null => rfl
  | .bool true => rfl
  | .bool false => rfl
  | .int k => exact readValue?_int n k hrest
  | .decimal text => exact Bool.noConfusion hv
  | .string s =>
    refine readValue?_string ?_ rest
    rw [renderAt] at hn
    omega
  | .array [] => rfl
  | .array (v :: items) =>
    have hparts : renderItems (level + 1) (v :: items) ≠ [] := by simp [renderItems]
    have hlength := length_bracketed level '[' ']' hparts
    have hfirst : v.isWhole = true := by
      rw [isWhole, areWhole, Bool.and_eq_true] at hv
      exact hv.1
    rw [renderAt] at hn ⊢
    rw [bracketed_append hparts, readValue?_array (skipLayout_renderItems_ne hfirst items _ _),
      readItems?_lineBreak, h.items v items (level + 1) level rest hv (by omega)]
    rfl
  | .object [] => rfl
  | .object ((key, v) :: members) =>
    have hparts : renderMembers (level + 1) ((key, v) :: members) ≠ [] := by simp [renderMembers]
    have hlength := length_bracketed level '\x7b' '\x7d' hparts
    rw [renderAt] at hn ⊢
    rw [bracketed_append hparts, readValue?_object (skipLayout_renderMembers_ne key v members _ _),
      readMembers?_lineBreak, h.members key v members (level + 1) level rest hv (by omega)]
    rfl

theorem items_succ (h : ReadsBack n) (v : Json) (items : List Json) (level outer : Nat)
    (rest : List Char) (hwhole : areWhole (v :: items) = true)
    (hn : 2 * (join (',' :: lineBreak level) (renderItems level (v :: items))).length < n + 1) :
    readItems? (n + 1) (join (',' :: lineBreak level) (renderItems level (v :: items)) ++
      (lineBreak outer ++ ']' :: rest)) = some (v :: items, rest) := by
  rw [areWhole, Bool.and_eq_true] at hwhole
  obtain ⟨hv, hitems⟩ := hwhole
  rw [renderItems, length_join_cons] at hn
  cases items with
  | nil =>
    have hread := h.value v level (lineBreak outer ++ ']' :: rest) hv (by omega)
      (endsNumber_lineBreak outer _)
    refine readItems?_last hread ?_
    rw [skipLayout_lineBreak]
    exact skipLayout_of_isMark (by decide) _
  | cons w items =>
    rw [if_neg (by simp [renderItems]), List.length_cons] at hn
    have hread := h.value v level
      (',' :: (lineBreak level ++ (join (',' :: lineBreak level) (renderItems level (w :: items)) ++
        (lineBreak outer ++ ']' :: rest)))) hv (by omega) (endsNumber_comma _)
    have htext : join (',' :: lineBreak level) (renderItems level (v :: w :: items)) =
        renderAt level v ++ ',' :: lineBreak level ++
          join (',' :: lineBreak level) (renderItems level (w :: items)) := by
      simp [renderItems, join]
    rw [htext]
    simp only [List.append_assoc, List.cons_append]
    rw [readItems?_comma hread, readItems?_lineBreak,
      h.items w items level outer rest hitems (by omega)]
    rfl

theorem members_succ (h : ReadsBack n) (key : String) (v : Json) (members : List (String × Json))
    (level outer : Nat) (rest : List Char) (hwhole : areWholeMembers ((key, v) :: members) = true)
    (hn : 2 * (join (',' :: lineBreak level) (renderMembers level ((key, v) :: members))).length <
      n + 1) :
    readMembers? (n + 1)
      (join (',' :: lineBreak level) (renderMembers level ((key, v) :: members)) ++
        (lineBreak outer ++ '\x7d' :: rest)) = some ((key, v) :: members, rest) := by
  rw [areWholeMembers, Bool.and_eq_true] at hwhole
  obtain ⟨hv, hmembers⟩ := hwhole
  rw [renderMembers, length_join_cons, List.length_append, List.length_append] at hn
  cases members with
  | nil =>
    have hread := h.value v level (lineBreak outer ++ '\x7d' :: rest) hv (by omega)
      (endsNumber_lineBreak outer _)
    have hclose : skipLayout (lineBreak outer ++ '\x7d' :: rest) = '\x7d' :: rest := by
      rw [skipLayout_lineBreak]
      exact skipLayout_of_isMark (by decide) _
    rw [renderMembers, renderMembers, join, List.append_assoc]
    exact readMembers?_last (by omega) hread hclose
  | cons m members =>
    obtain ⟨key', w⟩ := m
    rw [if_neg (by simp [renderMembers]), List.length_cons] at hn
    have hread := h.value v level
      (',' :: (lineBreak level ++
        (join (',' :: lineBreak level) (renderMembers level ((key', w) :: members)) ++
          (lineBreak outer ++ '\x7d' :: rest)))) hv (by omega) (endsNumber_comma _)
    have htext :
        join (',' :: lineBreak level) (renderMembers level ((key, v) :: (key', w) :: members)) =
          renderString key ++ ": ".toList ++ (renderAt level v ++ ',' :: lineBreak level ++
            join (',' :: lineBreak level) (renderMembers level ((key', w) :: members))) := by
      simp [renderMembers, join]
    have hkey : (renderString key).length ≤ n + 1 := by omega
    have hstep := readMembers?_comma hkey hread
    rw [readMembers?_lineBreak, h.members key' w members level outer rest hmembers (by omega)]
      at hstep
    rw [htext]
    simpa only [List.append_assoc, List.cons_append, Option.map_some] using hstep

end ReadsBack

theorem readsBack (n : Nat) : ReadsBack n := by
  induction n with
  | zero =>
    refine ⟨?_, ?_, ?_⟩
    · intro v level rest hv hn
      obtain ⟨c, tail, htext, -⟩ := exists_renderAt_eq_cons hv level
      rw [htext, List.length_cons] at hn
      omega
    · intro v items level outer rest _ hn
      omega
    · intro key v members level outer rest _ hn
      omega
  | succ n ih => exact ⟨ih.value_succ, ih.items_succ, ih.members_succ⟩

/-- A value without fractions and exponents is read back from its written form. -/
theorem read?_render {v : Json} (hv : v.isWhole = true) : read? (render v).toList = some v := by
  have hread := (readsBack (2 * (renderAt 0 v).length + 2)).value v 0 [] hv (Nat.le_add_right _ _)
    endsNumber_nil
  rw [List.append_nil] at hread
  rw [render, String.toList_ofList, read?, hread]
  rfl

end SourceCensus.Json
