/-!
# Binary Floating Point

A finite double is a significand of at most 53 bits times a power of two. Its operations are
exact arithmetic on natural numbers followed by one rounding to the nearest double, a tie
going to the even significand.

## Main definitions

* `Binary64` — the magnitude of a finite double.
* `Binary64.round` — the nearest double to a quotient scaled by a power of two.
* `Binary64.mul`, `Binary64.div` — the rounded operations.
-/

namespace TrustedHtml

/-- The number `significand * 2 ^ exponent`. In the values made by `Binary64.round` the
significand is less than `2 ^ 53` and the exponent is at least `-1074`, and one of the two
is as close to its bound as the value allows. -/
structure Binary64 where
  significand : Nat
  exponent : Int
deriving DecidableEq, Repr

namespace Binary64

/-- The least significand of a number that is not subnormal, `2 ^ 52`. -/
def hiddenBit : Nat := 0x10000000000000

/-- Zero, of either sign. -/
def zero : Binary64 := ⟨0, -1074⟩

/-- Whether the number is zero. -/
def isZero (x : Binary64) : Bool :=
  x.significand == 0

/-- The quotient rounded to a natural number, a half going to the even neighbour. -/
def divideToEven (num den : Nat) : Nat :=
  let quotient := num / den
  let twice := 2 * (num % den)
  if twice < den ∨ (twice = den ∧ quotient % 2 = 0) then quotient else quotient + 1

/-- Numerator and denominator of `num / den * 2 ^ exponent`. -/
def scale (num den : Nat) (exponent : Int) : Nat × Nat :=
  if 0 ≤ exponent then (num * Nat.pow 2 exponent.toNat, den)
  else (num, den * Nat.pow 2 (-exponent).toNat)

/-- The exponent of the last place of the double nearest to `num / den`. -/
def lastPlace (num den : Nat) : Int :=
  let place : Int := max (-1074) ((num.log2 : Int) - den.log2 - 53)
  let (a, b) := scale num den (-place)
  if a / b < 2 * hiddenBit then place else place + 1

/-- The double nearest to `num / den`, whatever its size, given the exponent of its last place. -/
def roundAt (num den : Nat) (place : Int) : Binary64 :=
  let (a, b) := scale num den (-place)
  let significand := divideToEven a b
  if significand < 2 * hiddenBit then ⟨significand, place⟩ else ⟨hiddenBit, place + 1⟩

/-- The double nearest to `num / den * 2 ^ exponent`, unless that is too large. -/
def round (num den : Nat) (exponent : Int) : Option Binary64 :=
  if num = 0 then some zero
  else
    let (num, den) := scale num den exponent
    let rounded := roundAt num den (lastPlace num den)
    if rounded.exponent ≤ 971 then some rounded else none

/-- The double nearest to a natural number. -/
def ofNat (n : Nat) : Option Binary64 :=
  round n 1 0

/-- The rounded product. -/
def mul (x y : Binary64) : Option Binary64 :=
  round (x.significand * y.significand) 1 (x.exponent + y.exponent)

/-- The rounded quotient by a number that is not zero. -/
def div (x y : Binary64) : Option Binary64 :=
  round x.significand y.significand (x.exponent - y.exponent)

end Binary64

end TrustedHtml
