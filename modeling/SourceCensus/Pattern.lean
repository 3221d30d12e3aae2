import SourceCensus.Text.Blank
import SourceCensus.Text.Word

/-!
# Patterns

A *pattern* describes a set of texts by characters, sequence, choice, repetition and a look ahead that
forbids.  Comment markers, text block delimiters, accessor shapes and the import statement are all
patterns, so that a language is data and not code.

A pattern that is tried on a text can match more than one beginning of it.  The order in which the
beginnings are tried is part of the meaning, because the first one that the rest of the attempt accepts
decides where a marker is found: a repetition prefers more rounds to fewer, an option prefers its
content to nothing, and a choice prefers its left side.

Two readings are given.

* `Pattern.rests p s` lists what is left of `s` behind each beginning that `p` matches, best first.
  It is the meaning, and what statements are about.
* `Pattern.run p s k` hands these to `k` one after another until `k` accepts, and never builds the list.
  It is what runs.

`run_eq_findSome?` says that they agree.  `Pattern.source` writes a pattern in the usual notation.
-/

set_option autoImplicit false

namespace SourceCensus

/-- A piece of a bracketed class of characters. -/
inductive Piece where
  /-- One character. -/
  | char (c : Char)
  /-- The characters from `first` to `last`, by code point. -/
  | range (first last : Char)
  /-- A letter, a number or the underscore. -/
  | word
  /-- A blank. -/
  | blank
  deriving Repr, DecidableEq

/-- Whether `c` belongs to the piece. -/
def Piece.holds : Piece → Char → Bool
  | .char d, c => c == d
  | .range first last, c => first.toNat ≤ c.toNat && c.toNat ≤ last.toNat
  | .word, c => Text.isWord c
  | .blank, c => Text.isBlank c

/-- A description of texts. -/
inductive Pattern where
  /-- The empty text. -/
  | nothing
  /-- Any character but the newline. -/
  | any
  /-- A character of the piece. -/
  | one (piece : Piece)
  /-- A character of one of the pieces. -/
  | oneOf (pieces : List Piece)
  /-- A character of none of the pieces. -/
  | noneOf (pieces : List Piece)
  /-- The empty text, where `p` does not match what follows. -/
  | notAhead (p : Pattern)
  /-- A text of `p`, then one of `q`. -/
  | seq (p q : Pattern)
  /-- A text of `p`, or else one of `q`. -/
  | alt (p q : Pattern)
  /-- Any number of texts of `p`, the more the better. -/
  | star (p : Pattern)
  /-- At least one text of `p`, the more the better. -/
  | plus (p : Pattern)
  /-- A text of `p`, or else the empty text. -/
  | opt (p : Pattern)
  deriving Repr, DecidableEq

namespace Pattern

/-! ## Building patterns -/

/-- Exactly the text `s`. -/
def text : List Char → Pattern
  | [] => nothing
  | [c] => one (.char c)
  | c :: s => seq (one (.char c)) (text s)

def chain : List Pattern → Pattern
  | [] => nothing
  | [p] => p
  | p :: ps => seq p (chain ps)

/-- The first of the patterns that fits. -/
def choice : List Pattern → Pattern
  | [] => nothing
  | [p] => p
  | p :: ps => alt p (choice ps)

/-! ## What is left behind a match -/

/-- What is left behind one character that passes `test`. -/
def restsOne (test : Char → Bool) : List Char → List (List Char)
  | [] => []
  | c :: s => if test c then [s] else []

/-- At most `n` rounds of `step`, the more the better. -/
def restsStar (step : List Char → List (List Char)) : Nat → List Char → List (List Char)
  | 0, s => [s]
  | n + 1, s => (step s).flatMap (restsStar step n) ++ [s]

/-- What is left of `s` behind each beginning that the pattern matches, best first.  A repetition is
given as many rounds as there are characters: a round that matches only the empty text is of no use. -/
def rests : Pattern → List Char → List (List Char)
  | nothing, s => [s]
  | any, s => restsOne (· != '\n') s
  | one piece, s => restsOne piece.holds s
  | oneOf pieces, s => restsOne (fun c => pieces.any (·.holds c)) s
  | noneOf pieces, s => restsOne (fun c => !pieces.any (·.holds c)) s
  | notAhead p, s => if (rests p s).isEmpty then [s] else []
  | seq p q, s => (rests p s).flatMap (rests q)
  | alt p q, s => rests p s ++ rests q s
  | star p, s => restsStar (rests p) s.length s
  | plus p, s => (rests p s).flatMap fun r => restsStar (rests p) r.length r
  | opt p, s => rests p s ++ [s]

/-! ## The matcher -/

/-- Hands `k` what is left behind one character that passes `test`. -/
def runOne {α : Type} (test : Char → Bool) (k : List Char → Option α) : List Char → Option α
  | [] => none
  | c :: s => if test c then k s else none

/-- Hands `k` what is left behind at most `n` rounds of `step`, the more the better. -/
def runStar {α : Type} (step : List Char → (List Char → Option α) → Option α)
    (k : List Char → Option α) : Nat → List Char → Option α
  | 0, s => k s
  | n + 1, s => (step s (runStar step k n)).or (k s)

/-- Hands `k` what is left of `s` behind each beginning that the pattern matches, best first, until `k`
accepts. -/
def run : Pattern → {α : Type} → List Char → (List Char → Option α) → Option α
  | nothing, _, s, k => k s
  | any, _, s, k => runOne (· != '\n') k s
  | one piece, _, s, k => runOne piece.holds k s
  | oneOf pieces, _, s, k => runOne (fun c => pieces.any (·.holds c)) k s
  | noneOf pieces, _, s, k => runOne (fun c => !pieces.any (·.holds c)) k s
  | notAhead p, _, s, k => if (run p s fun _ => some ()).isSome then none else k s
  | seq p q, _, s, k => run p s fun r => run q r k
  | alt p q, _, s, k => (run p s k).or (run q s k)
  | star p, _, s, k => runStar (fun r k' => run p r k') k s.length s
  | plus p, _, s, k => run p s fun r => runStar (fun r' k' => run p r' k') k r.length r
  | opt p, _, s, k => (run p s k).or (k s)

theorem runOne_eq {α : Type} (test : Char → Bool) (k : List Char → Option α) (s : List Char) :
    runOne test k s = (restsOne test s).findSome? k := by
  cases s with
  | nil => rfl
  | cons c s => by_cases h : test c <;> simp [runOne, restsOne, h]

theorem findSome?_flatMap {α β γ : Type} (l : List α) (f : α → List β) (k : β → Option γ) :
    (l.flatMap f).findSome? k = l.findSome? fun a => (f a).findSome? k := by
  induction l with
  | nil => rfl
  | cons a l ih =>
    rw [List.flatMap_cons, List.findSome?_append, ih, List.findSome?_cons]
    cases (f a).findSome? k <;> rfl

theorem runStar_eq {α : Type} {step : List Char → (List Char → Option α) → Option α}
    {stepRests : List Char → List (List Char)}
    (h : ∀ s k, step s k = (stepRests s).findSome? k) (k : List Char → Option α) :
    ∀ n s, runStar step k n s = (restsStar stepRests n s).findSome? k
  | 0, s => by simp [runStar, restsStar]
  | n + 1, s => by
    rw [runStar, restsStar, List.findSome?_append, findSome?_flatMap, h]
    congr 1
    · congr 1
      funext r
      exact runStar_eq h k n r
    · simp

/-- The matcher finds the first of the rests that is accepted. -/
theorem run_eq_findSome? (p : Pattern) :
    ∀ {α : Type} (s : List Char) (k : List Char → Option α),
      run p s k = (rests p s).findSome? k := by
  induction p with
  | nothing => intro α s k; simp [run, rests]
  | any | one | oneOf | noneOf => intro α s k; exact runOne_eq _ k s
  | notAhead p ih =>
    intro α s k
    rw [run, rests, ih]
    cases rests p s <;> simp
  | seq p q ihp ihq =>
    intro α s k
    rw [run, rests, ihp, findSome?_flatMap]
    congr 1
    funext r
    exact ihq r k
  | alt p q ihp ihq =>
    intro α s k
    rw [run, rests, ihp, ihq, List.findSome?_append]
  | star p ih =>
    intro α s k
    exact runStar_eq (fun r k' => ih r k') k s.length s
  | plus p ih =>
    intro α s k
    rw [run, rests, ih, findSome?_flatMap]
    congr 1
    funext r
    exact runStar_eq (fun r k' => ih r k') k r.length r
  | opt p ih =>
    intro α s k
    rw [run, rests, ih, List.findSome?_append]
    simp

/-! ## Whole texts and beginnings -/

/-- Accepts the end of the text. -/
def done (s : List Char) : Option Unit := if s.isEmpty then some () else none

/-- Accepts the end of the text, also in front of one last newline. -/
def lineDone (s : List Char) : Option Unit := if s.isEmpty || s == ['\n'] then some () else none

/-- Whether the pattern matches the whole text. -/
def fits (p : Pattern) (s : List Char) : Bool := (p.run s done).isSome

/-- Whether the pattern matches the text up to its end or up to one last newline. -/
def fitsLine (p : Pattern) (s : List Char) : Bool := (p.run s lineDone).isSome

/-! ## Notation -/

/-- A character that has a meaning of its own in the notation of patterns. -/
def isReserved (c : Char) : Bool := "\\.^$*+?\x7b\x7d[]|()".toList.contains c

/-- A character outside brackets. -/
def sourceChar (c : Char) : List Char := if isReserved c then ['\\', c] else [c]

end Pattern

/-- A piece between brackets. -/
def Piece.source : Piece → List Char
  | .char c => if "\\[]^-".toList.contains c then ['\\', c] else [c]
  | .range first last => [first, '-', last]
  | .word => ['\\', 'w']
  | .blank => ['\\', 's']

namespace Pattern

/-- The pattern between grouping brackets. -/
def sourceGroup (s : List Char) : List Char := "(?:".toList ++ s ++ [')']

/-- The pattern in the usual notation, and whether it can stand before a repetition sign, and whether
it can stand in a sequence, without brackets. -/
def notated : Pattern → List Char × Bool × Bool
  | nothing => ([], false, true)
  | any => (['.'], true, true)
  | one (.char c) => (sourceChar c, true, true)
  | one (.range first last) => ('[' :: (Piece.range first last).source ++ [']'], true, true)
  | one .word => (Piece.word.source, true, true)
  | one .blank => (Piece.blank.source, true, true)
  | oneOf pieces => ('[' :: pieces.flatMap Piece.source ++ [']'], true, true)
  | noneOf pieces => ('[' :: '^' :: pieces.flatMap Piece.source ++ [']'], true, true)
  | notAhead p => ("(?!".toList ++ (notated p).1 ++ [')'], true, true)
  | seq p q =>
    let side (n : List Char × Bool × Bool) := if n.2.2 then n.1 else sourceGroup n.1
    (side (notated p) ++ side (notated q), false, true)
  | alt p q => ((notated p).1 ++ '|' :: (notated q).1, false, false)
  | star p => (repeated (notated p) '*', false, true)
  | plus p => (repeated (notated p) '+', false, true)
  | opt p => (repeated (notated p) '?', false, true)
where
  /-- A repetition sign behind what it repeats. -/
  repeated (n : List Char × Bool × Bool) (sign : Char) : List Char :=
    (if n.2.1 then n.1 else sourceGroup n.1) ++ [sign]

/-- The pattern in the usual notation. -/
def source (p : Pattern) : String := String.ofList (notated p).1

end Pattern

end SourceCensus
