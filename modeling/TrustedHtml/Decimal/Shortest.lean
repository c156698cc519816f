import TrustedHtml.Decimal.Binary64

/-!
# Shortest Decimal Text of a Double

A double is written with the fewest decimal digits that read back as the same double, and
among those with the digits nearest to it. For a given number of digits only the two
neighbours of the double on the decimal grid need to be tried.

## Main definitions

* `Decimal` — digits and a power of ten.
* `Binary64.shortest` — the shortest decimal of a double.
* `Decimal.text` — positional text for moderate sizes, otherwise with an exponent.
-/

namespace TrustedHtml

/-- The number `digits * 10 ^ exponent`. -/
structure Decimal where
  digits : Nat
  exponent : Int
deriving DecidableEq, Repr

namespace Decimal

/-- Numerator and denominator. -/
def ratio (d : Decimal) : Nat × Nat :=
  if 0 ≤ d.exponent then (d.digits * Nat.pow 10 d.exponent.toNat, 1)
  else (d.digits, Nat.pow 10 (-d.exponent).toNat)

end Decimal

namespace Binary64

/-- Numerator and denominator of a quarter of the last place of `x`, times `count`. -/
def quarters (x : Binary64) (count : Nat) : Nat × Nat :=
  scale count 4 x.exponent

/-- The numbers that round to `x` lie between this many quarters of its last place, below
and above. -/
def roundingInterval (x : Binary64) : Nat × Nat :=
  let below := if x.significand = hiddenBit ∧ -1074 < x.exponent then 1 else 2
  (4 * x.significand - below, 4 * x.significand + 2)

/-- Whether a decimal reads back as `x`. The ends of the interval do if the significand is
even. -/
def readsBack (x : Binary64) (d : Decimal) : Bool :=
  let (num, den) := d.ratio
  let (low, high) := x.roundingInterval
  let (lowNum, lowDen) := x.quarters low
  let (highNum, highDen) := x.quarters high
  if x.significand % 2 = 0 then
    lowNum * den ≤ num * lowDen && num * highDen ≤ highNum * den
  else
    lowNum * den < num * lowDen && num * highDen < highNum * den

/-- The exponent of the first decimal digit of a double that is not zero. -/
def firstDigitExponent (x : Binary64) : Int :=
  let (num, den) := scale x.significand 1 x.exponent
  ((Nat.toDigits 10 (num * Nat.pow 10 330 / den)).length : Int) - 331

/-- The decimals with this exponent next to `x`: those that read back as `x`, the nearest one
first and of two equally near ones the even one. -/
def neighboursAt (x : Binary64) (exponent : Int) : List Decimal :=
  let (num, den) := scale x.significand 1 x.exponent
  let (num, den) :=
    if 0 ≤ exponent then (num, den * Nat.pow 10 exponent.toNat)
    else (num * Nat.pow 10 (-exponent).toNat, den)
  let lower := num / den
  let nearest := divideToEven num den
  let other := if nearest = lower then lower + 1 else lower
  [(⟨nearest, exponent⟩ : Decimal), ⟨other, exponent⟩].filter x.readsBack

/-- The decimals with `count` digits next to `x`. -/
def neighbours (x : Binary64) (count : Nat) : List Decimal :=
  x.neighboursAt (x.firstDigitExponent - count + 1)

/-- The shortest decimal that reads back as `x`; 17 digits always suffice. -/
def shortest (x : Binary64) : Decimal :=
  if x.isZero then ⟨0, 0⟩
  else ((List.range 17).findSome? fun n => (x.neighbours (n + 1)).head?).getD ⟨0, 0⟩

end Binary64

namespace Decimal

/-- The digits without trailing zeros; at least one is left. -/
def significantDigits (d : Decimal) : List Char :=
  match (((Nat.toDigits 10 d.digits).reverse).dropWhile (· == '0')).reverse with
  | [] => ['0']
  | digits => digits

/-- The exponent of the first digit. -/
def magnitude (d : Decimal) : Int :=
  d.exponent + (Nat.toDigits 10 d.digits).length - 1

/-- The text of a decimal. Numbers from `10 ^ -5` to `10 ^ 16` are written positionally with
at least one decimal place, all others with the signed exponent of their first digit. -/
def text (d : Decimal) : String :=
  let digits := d.significantDigits
  let first := d.magnitude
  String.ofList <|
    if d.digits = 0 then ['0', '.', '0']
    else if -5 ≤ first ∧ first < 0 then
      ['0', '.'] ++ List.replicate (-first - 1).toNat '0' ++ digits
    else if 0 ≤ first ∧ first ≤ 15 then
      let whole := first.toNat + 1
      let fraction := digits.drop whole
      digits.take whole ++ List.replicate (whole - digits.length) '0' ++
        '.' :: (if fraction.isEmpty then ['0'] else fraction)
    else
      let fraction := digits.drop 1
      let sign := if first < 0 then '-' else '+'
      digits.take 1 ++ (if fraction.isEmpty then [] else '.' :: fraction) ++
        'e' :: sign :: Nat.toDigits 10 first.natAbs

end Decimal

end TrustedHtml
