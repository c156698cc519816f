/-!
# Bounded Counters

Columns, indentation depths and row numbers are natural numbers that have to fit a machine
word. The operations here return the exact result or say which operation left the range, so
that everything above them can compute in `Nat` and `Int`.

## Main definitions

* `Overflow` — the operation whose result did not fit.
* `Counter.add`, `Counter.mul` — unsigned 64-bit counting.
* `Counter.toSigned`, `Counter.addSigned` — signed 64-bit numbers.
-/

namespace TrustedHtml

/-- An arithmetic operation left the range of its counter. -/
inductive Overflow where
  | add
  | multiply
deriving DecidableEq, Repr

/-- The text under which an overflow is reported. -/
def Overflow.message : Overflow → String
  | .add => "attempt to add with overflow"
  | .multiply => "attempt to multiply with overflow"

namespace Counter

/-- Counters are less than this bound, `2 ^ 64`. -/
def bound : Nat := UInt64.size

/-- The sum, if it is a counter. -/
def add (a b : Nat) : Except Overflow Nat :=
  if a + b < bound then .ok (a + b) else .error .add

/-- The product, if it is a counter. -/
def mul (a b : Nat) : Except Overflow Nat :=
  if a * b < bound then .ok (a * b) else .error .multiply

/-- The signed number that is written with the same 64 bits. -/
def toSigned (n : Nat) : Int :=
  (n : Int).bmod bound

/-- The sum, if it is at least `-2 ^ 63` and less than `2 ^ 63`. -/
def addSigned (a b : Int) : Except Overflow Int :=
  if -0x8000000000000000 ≤ a + b ∧ a + b < 0x8000000000000000 then .ok (a + b) else .error .add

theorem add_eq_ok_iff {a b n : Nat} : add a b = .ok n ↔ a + b = n ∧ n < bound := by
  unfold add
  split <;> rename_i h
  · constructor
    · rintro ⟨⟩
      exact ⟨rfl, h⟩
    · rintro ⟨rfl, -⟩
      rfl
  · constructor
    · rintro ⟨⟩
    · rintro ⟨rfl, hn⟩
      exact absurd hn h

theorem mul_eq_ok_iff {a b n : Nat} : mul a b = .ok n ↔ a * b = n ∧ n < bound := by
  unfold mul
  split <;> rename_i h
  · constructor
    · rintro ⟨⟩
      exact ⟨rfl, h⟩
    · rintro ⟨rfl, -⟩
      rfl
  · constructor
    · rintro ⟨⟩
    · rintro ⟨rfl, hn⟩
      exact absurd hn h

end Counter

end TrustedHtml
