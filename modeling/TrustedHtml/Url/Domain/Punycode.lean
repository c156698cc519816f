/-!
# Punycode

A label of a domain name that holds characters beyond ASCII is written with its ASCII
characters first and then the positions and values of the others, as a sequence of numbers
with a variable number of digits in base 36.

## Main definitions

* `Punycode.encode` — the ASCII form of a label.
* `Punycode.decode?` — the label with a given ASCII form.
-/

namespace TrustedHtml.Url.Punycode

/-- Of two digits with the values below 26 and 26 to 35, the letters come first. -/
def digitChar (value : Nat) : Char :=
  if value < 26 then Char.ofNat (97 + value) else Char.ofNat (48 + (value - 26))

/-- The value of a digit, upper-case letters included. -/
def digitValue? (c : Char) : Option Nat :=
  if 'a' ≤ c && c ≤ 'z' then some (c.toNat - 97)
  else if 'A' ≤ c && c ≤ 'Z' then some (c.toNat - 65)
  else if '0' ≤ c && c ≤ '9' then some (c.toNat - 48 + 26)
  else none

/-- The least value that the digit at position `k` must have for more digits to follow. -/
def threshold (k bias : Nat) : Nat :=
  if k ≤ bias then 1 else min (k - bias) 26

theorem one_le_threshold (k bias : Nat) : 1 ≤ threshold k bias := by
  unfold threshold
  split <;> omega

/-- Divide by 35 while the number is large, counting 36 for each division. -/
def scaleDown (delta k : Nat) : Nat :=
  if 455 < delta then scaleDown (delta / 35) (k + 36) else k + 36 * delta / (delta + 38)
termination_by delta
decreasing_by exact Nat.div_lt_self (by omega) (by omega)

/-- The bias after a number `delta`, with `count` characters of the label known. -/
def adapt (delta count : Nat) (first : Bool) : Nat :=
  let scaled := if first then delta / 700 else delta / 2
  scaleDown (scaled + scaled / count) 0

/-- The digits of a number from position `k` on. -/
def numberDigits (bias k number : Nat) : List Char :=
  if _h : number < threshold k bias then [digitChar number]
  else
    let t := threshold k bias
    digitChar (t + (number - t) % (36 - t)) ::
      numberDigits bias (k + 36) ((number - t) / (36 - t))
termination_by number
decreasing_by
  have h1 := one_le_threshold k bias
  have h2 : (number - threshold k bias) / (36 - threshold k bias) ≤
      number - threshold k bias := Nat.div_le_self _ _
  omega

/-- The state of writing a label: digits so far, the number in progress, the bias, and how
many characters have been written. -/
structure Encoding where
  digits : List Char
  delta : Nat
  bias : Nat
  handled : Nat

/-- Pass over one character of the label while the character `point` is being written. -/
def Encoding.visit (basic point : Nat) (e : Encoding) (c : Char) : Encoding :=
  if c.toNat < point then { e with delta := e.delta + 1 }
  else if c.toNat = point then
    { digits := e.digits ++ numberDigits e.bias 36 e.delta
      delta := 0
      bias := adapt e.delta (e.handled + 1) (e.handled == basic)
      handled := e.handled + 1 }
  else e

/-- Write the given code points, in increasing order, from the code point `next` on. -/
def Encoding.write (label : List Char) (basic : Nat) :
    List Nat → Nat → Encoding → Encoding
  | [], _, e => e
  | point :: points, next, e =>
    let e := { e with delta := e.delta + (point - next) * (e.handled + 1) }
    let e := label.foldl (Encoding.visit basic point) e
    Encoding.write label basic points (point + 1) { e with delta := e.delta + 1 }

/-- Insert a number into an increasing list, unless it is there. -/
def insertIncreasing (n : Nat) : List Nat → List Nat
  | [] => [n]
  | m :: rest =>
    if n < m then n :: m :: rest
    else if n = m then m :: rest
    else m :: insertIncreasing n rest

/-- The ASCII form of a label. -/
def encode (label : List Char) : List Char :=
  let ascii := label.filter (·.toNat < 0x80)
  let points := (label.filter (0x80 ≤ ·.toNat)).foldl
    (fun points c => insertIncreasing c.toNat points) []
  let start := if ascii.isEmpty then [] else ascii ++ ['-']
  start ++ (Encoding.write label ascii.length points 0x80 ⟨[], 0, 72, ascii.length⟩).digits

/-- Numbers that a label is read with stay below this. -/
def numberLimit : Nat := UInt32.size

/-- Add the number that the digits describe to `number`: the sum, and the characters after the
digits. -/
def readNumber? (bias : Nat) : Nat → Nat → Nat → List Char → Option (Nat × List Char)
  | _, _, _, [] => none
  | k, weight, number, c :: rest => do
    let value ← digitValue? c
    let number := number + value * weight
    let t := threshold k bias
    if numberLimit ≤ number then none
    else if value < t then return (number, rest)
    else if numberLimit ≤ weight * (36 - t) then none
    else readNumber? bias (k + 36) (weight * (36 - t)) number rest

theorem length_lt_of_readNumber? {bias : Nat} {cs rest : List Char} {number : Nat} :
    ∀ {k weight start : Nat},
      readNumber? bias k weight start cs = some (number, rest) → rest.length < cs.length := by
  induction cs with
  | nil => intro k weight start h; simp [readNumber?] at h
  | cons c cs ih =>
    intro k weight start h
    simp only [readNumber?, Option.bind_eq_bind, Option.bind_eq_some_iff] at h
    obtain ⟨value, -, h⟩ := h
    split at h
    · simp at h
    · split at h
      · simp only [Option.pure_def, Option.some.injEq, Prod.mk.injEq] at h
        simp [← h.2]
      · split at h
        · simp at h
        · have := ih h
          simp only [List.length_cons]
          omega

/-- Insert the characters that the digits describe into `label`, from the code point `point`
and the position `position` on. -/
def insertAll? (digits : List Char) (point position bias : Nat) (label : List Char) :
    Option (List Char) :=
  if digits.isEmpty then some label
  else
    match _h : readNumber? bias 36 1 position digits with
    | none => none
    | some (number, rest) =>
      let count := label.length + 1
      let value := point + number / count
      let place := number % count
      if Nat.isValidChar value then
        insertAll? rest value (place + 1) (adapt (number - position) count (position == 0))
          (label.take place ++ Char.ofNat value :: label.drop place)
      else none
termination_by digits.length
decreasing_by exact length_lt_of_readNumber? _h

/-- The label with a given ASCII form. What stands before the last hyphen are the ASCII
characters of the label; where there are none, there is no hyphen either. -/
def decode? (form : List Char) : Option (List Char) :=
  let digits := (form.reverse.takeWhile (· != '-')).reverse
  let ascii := form.take (form.length - digits.length)
  if ascii == ['-'] then none
  else insertAll? digits 0x80 0 72 ascii.dropLast

end TrustedHtml.Url.Punycode
