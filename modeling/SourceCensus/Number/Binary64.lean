/-!
# Binary floating-point numbers

A configuration file can hold a number with a fraction where none belongs, and the message that refuses it
shows the number.  So such numbers are kept as what they are: binary, with a significand of 53 bits.  Only
reading and writing are needed, and both are exact computations with natural numbers.

* `Binary64.ofDecimal`: the number nearest to a decimal one, of two equally near the even one;
* `Binary64.shortest`: the fewest decimal digits that read back as the number, and of these the nearest to
  it;
* `Binary64.render`: the written form: positional from 0.0001 up to 10^16, with an exponent elsewhere.
-/

set_option autoImplicit false

namespace SourceCensus

/-- A binary floating-point number.  The finite ones are `significand * 2 ^ exponent`, where the significand
has 53 bits, or fewer at the least exponent. -/
inductive Binary64 where
  | nan
  | infinite (negative : Bool)
  | finite (negative : Bool) (significand : Nat) (exponent : Int)
  deriving Repr, DecidableEq

namespace Binary64

/-- The least exponent. -/
def minExponent : Int := -1074

/-- The greatest exponent. -/
def maxExponent : Int := 971

/-- The number of bits of a full significand. -/
def precision : Nat := 53

/-- Whether the number is zero, of either sign. -/
def isZero : Binary64 → Bool
  | finite _ 0 _ => true
  | _ => false

/-! ## Reading -/

/-- The quotient rounded to the nearest whole number, halves to the even one. -/
def roundQuotient (num den : Nat) : Nat :=
  let q := num / den
  let r := num % den
  if 2 * r < den then q
  else if den < 2 * r then q + 1
  else q + q % 2

/-- The quotient divided by `2 ^ exponent`, as numerator and denominator. -/
def scaleBinary (num den : Nat) (exponent : Int) : Nat × Nat :=
  if 0 ≤ exponent then (num, den * Nat.pow 2 exponent.toNat)
  else (num * Nat.pow 2 (-exponent).toNat, den)

/-- The exponent at which the significand of the quotient has its full number of bits, or the least one. -/
def exponentOf (num den : Nat) : Int :=
  let guess : Int := (num.log2 : Int) - den.log2 - precision
  let (n, d) := scaleBinary num den guess
  let exponent := if n / d < Nat.pow 2 precision then guess else guess + 1
  max minExponent exponent

/-- The number nearest to a positive quotient. -/
def ofQuotient (negative : Bool) (num den : Nat) : Binary64 :=
  let exponent := exponentOf num den
  let (n, d) := scaleBinary num den exponent
  let significand := roundQuotient n d
  let (significand, exponent) :=
    if significand = Nat.pow 2 precision then (Nat.pow 2 (precision - 1), exponent + 1)
    else (significand, exponent)
  if maxExponent < exponent then infinite negative else finite negative significand exponent

/-- The number nearest to `digits * 10 ^ scale`, where `digits` has `count` decimal digits.  Numbers far
beyond either end are not computed. -/
def ofDecimal (negative : Bool) (digits count : Nat) (scale : Int) : Binary64 :=
  if digits = 0 then finite negative 0 minExponent
  else if scale > 400 then infinite negative
  else if scale + count < -400 then finite negative 0 minExponent
  else if 0 ≤ scale then ofQuotient negative (digits * Nat.pow 10 scale.toNat) 1
  else ofQuotient negative digits (Nat.pow 10 (-scale).toNat)

/-! ## Writing -/

/-- The number of decimal digits of a natural number. -/
def digitCount (n : Nat) : Nat := (Nat.toDigits 10 n).length

/-- The exponent of the first digit of a positive quotient. -/
def leadingExponent (num den : Nat) : Int :=
  if den ≤ num then (digitCount (num / den) : Int) - 1
  else
    match (List.range 330).find? fun j => den ≤ num * Nat.pow 10 (j + 1) with
    | some j => -(j + 1 : Int)
    | none => -330

/-- The quotient in units of `10 ^ exponent`, as numerator and denominator. -/
def scaleDecimal (num den : Nat) (exponent : Int) : Nat × Nat :=
  if 0 ≤ exponent then (num, den * Nat.pow 10 exponent.toNat)
  else (num * Nat.pow 10 (-exponent).toNat, den)

/-- The decimal with `count` digits that is nearest to `mid` among those between `low` and `high`, all
three over `den`; the ends belong to the range if `closed`.  Of two equally near ones it is the even one. -/
def nearestWithin? (low mid high den : Nat) (closed : Bool) (leading : Int) (count : Nat) :
    Option (Nat × Int) :=
  let unit := leading - (count - 1 : Int)
  let (n, d) := scaleDecimal mid den unit
  let (l, _) := scaleDecimal low den unit
  let (h, _) := scaleDecimal high den unit
  let inside (k : Nat) : Bool := if closed then l ≤ k * d && k * d ≤ h else l < k * d && k * d < h
  let k := n / d
  match inside k, inside (k + 1) with
  | true, true => some (roundQuotient n d, unit)
  | true, false => some (k, unit)
  | false, true => some (k + 1, unit)
  | false, false => none

/-- A decimal without trailing zeros. -/
def dropZeros : Nat → Nat × Int → Nat × Int
  | 0, d => d
  | fuel + 1, (digits, unit) =>
    if digits ≠ 0 ∧ digits % 10 = 0 then dropZeros fuel (digits / 10, unit + 1) else (digits, unit)

/-- The fewest digits that read back as the number, as a whole number and the power of ten it is to be
multiplied with. -/
def shortest (significand : Nat) (exponent : Int) : Nat × Int :=
  let isBoundary := significand = Nat.pow 2 (precision - 1) ∧ minExponent < exponent
  let (mid, den) := scaleBinary (4 * significand) 4 (-exponent)
  let (step, _) := scaleBinary 1 1 (-exponent)
  let low := mid - (if isBoundary then step else 2 * step)
  let high := mid + 2 * step
  let leading := leadingExponent mid den
  match (List.range 17).findSome? fun i =>
      nearestWithin? low mid high den (significand % 2 == 0) leading (i + 1) with
  | some d => dropZeros 20 d
  | none => (significand, exponent)

/-- The digits with the point `point` places behind the first one's left side. -/
def positional (digits : List Char) (point : Int) : List Char :=
  if point ≤ 0 then '0' :: '.' :: List.replicate (-point).toNat '0' ++ digits
  else if digits.length ≤ point.toNat then
    digits ++ List.replicate (point.toNat - digits.length) '0' ++ ['.', '0']
  else digits.take point.toNat ++ '.' :: digits.drop point.toNat

/-- The digits with an exponent of at least two digits. -/
def scientific (digits : List Char) (exponent : Int) : List Char :=
  let mantissa := match digits with
    | [] => []
    | [d] => [d]
    | d :: ds => d :: '.' :: ds
  let sign := if exponent < 0 then '-' else '+'
  let power := Nat.toDigits 10 exponent.natAbs
  mantissa ++ 'e' :: sign :: (if power.length < 2 then '0' :: power else power)

/-- The written form of a number. -/
def render : Binary64 → String
  | nan => "nan"
  | infinite negative => if negative then "-inf" else "inf"
  | finite negative significand exponent =>
    let body :=
      if significand = 0 then ['0', '.', '0']
      else
        let (digits, unit) := shortest significand exponent
        let ds := Nat.toDigits 10 digits
        let point : Int := unit + ds.length
        if -4 < point ∧ point ≤ 16 then positional ds point else scientific ds (point - 1)
    String.ofList (if negative then '-' :: body else body)

end Binary64

end SourceCensus
