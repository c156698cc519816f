import Mathlib.Algebra.Order.Field.Power
import Mathlib.Data.Nat.Cast.Order.Field
import Mathlib.Data.Nat.Log
import Mathlib.Tactic.FieldSimp
import Mathlib.Tactic.Linarith
import Mathlib.Tactic.Positivity
import Mathlib.Tactic.Ring
import TrustedHtml.Decimal.Binary64

/-!
# Nearest Doubles

A double stands for a rational number. Not every pair of a significand and an exponent is a double:
the significand has at most 53 bits, and the exponent is the least that leaves it so few of them.
With only one form for each number, the doubles next to a double are known: the one above is a unit
of its last place away, and so is the one below, except below a power of two, where the doubles lie
twice as close. So a number rounds to a double if it is within half of these distances.

Rounding is the operation from which all others are made. It gives a double in its one form, and no
other double is closer; of two that are equally close it gives the even one.

## Main definitions

* `Binary64.value`: the number that a double stands for.
* `Binary64.Canonical`: the one form of a double.
* `Binary64.IsNearest`: a double is the one that a number rounds to.

## Main results

* `Binary64.Canonical.add_le_of_lt`, `Binary64.Canonical.le_sub_of_lt`: the doubles next to one.
* `Binary64.Canonical.isNearest`: **a number within half of these distances rounds to the double.**
* `Binary64.round_spec`: **rounding gives the nearest double.**
-/

namespace TrustedHtml.Binary64

/-- The number that a double stands for. -/
def value (x : Binary64) : ℚ :=
  x.significand * 2 ^ x.exponent

/-- **The one form of a double.** No bound is set to its size. -/
structure Canonical (x : Binary64) : Prop where
  /-- The significand has at most 53 bits. -/
  significand_lt : x.significand < 2 ^ 53
  exponent_ge : -1074 ≤ x.exponent
  /-- It has all of them, unless the exponent cannot be any less. -/
  normal : 2 ^ 52 ≤ x.significand ∨ x.exponent = -1074

/-- **A number rounds to a double**: every other double is farther away, or just as far if the
significand is even. -/
def IsNearest (x : Binary64) (q : ℚ) : Prop :=
  ∀ y : Binary64, y.Canonical → y.value ≠ x.value →
    |q - x.value| < |q - y.value| ∨ (|q - x.value| = |q - y.value| ∧ x.significand % 2 = 0)

/-! ### The doubles next to a double -/

/-- The distance to the double below: half a unit of the last place below a power of two, except
where the doubles do not get any closer. -/
def gapBelow (x : Binary64) : ℚ :=
  if x.significand = 2 ^ 52 ∧ -1074 < x.exponent then 2 ^ x.exponent / 2 else 2 ^ x.exponent

section

variable {x y : Binary64}

/-- A double is not negative. -/
theorem value_nonneg (x : Binary64) : 0 ≤ x.value := by
  rw [value]
  positivity

/-- There is a distance to the double below. -/
theorem gapBelow_pos (x : Binary64) : 0 < x.gapBelow := by
  rw [gapBelow]
  split_ifs <;> positivity

/-- It is at most a unit of the last place. -/
theorem gapBelow_le (x : Binary64) : x.gapBelow ≤ 2 ^ x.exponent := by
  have hpos : (0 : ℚ) < 2 ^ x.exponent := by positivity
  rw [gapBelow]
  split_ifs <;> linarith

/-- A double whose last place is smaller has at most 53 bits behind the last place. -/
theorem Canonical.value_le_of_exponent_lt (hy : y.Canonical) {e : ℤ} (he : y.exponent < e) :
    y.value ≤ (2 ^ 53 - 1) * (2 ^ e / 2) := by
  have hsig : (y.significand : ℚ) ≤ 2 ^ 53 - 1 := by
    have h : y.significand + 1 ≤ 2 ^ 53 := hy.significand_lt
    have h' : (y.significand : ℚ) + 1 ≤ 2 ^ 53 := mod_cast h
    linarith
  have hpow : (2 : ℚ) ^ y.exponent ≤ 2 ^ e / 2 := by
    rw [div_eq_mul_inv, ← zpow_sub_one₀ two_ne_zero]
    exact zpow_le_zpow_right₀ one_le_two (by omega)
  exact mul_le_mul hsig hpow (by positivity) (by norm_num)

/-- A double whose last place is not smaller is a whole number of the places. -/
theorem exists_value_eq {e : ℤ} (he : e ≤ y.exponent) : ∃ m : ℕ, y.value = m * 2 ^ e := by
  obtain ⟨k, hk⟩ := Int.le.dest he
  refine ⟨y.significand * 2 ^ k, ?_⟩
  rw [value, ← hk, zpow_add₀ two_ne_zero, zpow_natCast]
  push_cast
  ring

/-- **The double above** is at least a unit of the last place away. -/
theorem Canonical.add_le_of_lt (hx : x.Canonical) (hy : y.Canonical) (h : x.value < y.value) :
    x.value + 2 ^ x.exponent ≤ y.value := by
  have hpos : (0 : ℚ) < 2 ^ x.exponent := by positivity
  rcases le_or_gt x.exponent y.exponent with he | he
  · obtain ⟨m, hm⟩ := exists_value_eq he
    rw [value, hm] at h
    have hlt : x.significand + 1 ≤ m := by exact_mod_cast lt_of_mul_lt_mul_right h hpos.le
    have hle : ((x.significand : ℚ) + 1) * 2 ^ x.exponent ≤ m * 2 ^ x.exponent :=
      mul_le_mul_of_nonneg_right (mod_cast hlt) hpos.le
    rw [value, hm]
    linarith
  · -- with a smaller last place it would not be above
    have hge := hy.exponent_ge
    have hnormal : 2 ^ 52 ≤ x.significand := hx.normal.resolve_right (by omega)
    have hbig : (2 ^ 52 : ℚ) * 2 ^ x.exponent ≤ x.value :=
      mul_le_mul_of_nonneg_right (mod_cast hnormal) hpos.le
    have hsmall := hy.value_le_of_exponent_lt he
    linarith

/-- **The double below** is at least so far away. -/
theorem Canonical.le_sub_of_lt (hx : x.Canonical) (hy : y.Canonical) (h : y.value < x.value) :
    y.value ≤ x.value - x.gapBelow := by
  have hpos : (0 : ℚ) < 2 ^ x.exponent := by positivity
  have hgap := x.gapBelow_le
  rcases le_or_gt x.exponent y.exponent with he | he
  · obtain ⟨m, hm⟩ := exists_value_eq he
    rw [hm, value] at h
    have hlt : m + 1 ≤ x.significand := by exact_mod_cast lt_of_mul_lt_mul_right h hpos.le
    have hle : ((m : ℚ) + 1) * 2 ^ x.exponent ≤ x.significand * 2 ^ x.exponent :=
      mul_le_mul_of_nonneg_right (mod_cast hlt) hpos.le
    rw [hm, value]
    linarith
  · have hge : -1074 < x.exponent := lt_of_le_of_lt hy.exponent_ge he
    have hnormal : 2 ^ 52 ≤ x.significand := hx.normal.resolve_right hge.ne'
    have hsmall := hy.value_le_of_exponent_lt he
    rcases hnormal.eq_or_lt with heq | hlt
    · have hvalue : x.value = 2 ^ 52 * 2 ^ x.exponent := by rw [value, ← heq]; norm_num
      rw [gapBelow, if_pos ⟨heq.symm, hge⟩, hvalue]
      linarith
    · have hle : ((2 ^ 52 : ℚ) + 1) * 2 ^ x.exponent ≤ x.value :=
        mul_le_mul_of_nonneg_right (mod_cast hlt) hpos.le
      linarith

/-- **A number within half of the distances to the doubles next to a double rounds to it**, at the
very half only if the significand is even. -/
theorem Canonical.isNearest (hx : x.Canonical) {q : ℚ} (hlow : x.value - x.gapBelow / 2 ≤ q)
    (hhigh : q ≤ x.value + 2 ^ x.exponent / 2)
    (hodd : x.significand % 2 ≠ 0 →
      x.value - x.gapBelow / 2 < q ∧ q < x.value + 2 ^ x.exponent / 2) :
    x.IsNearest q := by
  intro y hy hne
  have hpos : (0 : ℚ) < 2 ^ x.exponent := by positivity
  have hgap := x.gapBelow_pos
  -- `y` is no closer than `x`, and farther away if `x` is odd
  have hdist : |q - x.value| ≤ |q - y.value| ∧
      (x.significand % 2 ≠ 0 → |q - x.value| < |q - y.value|) := by
    rcases lt_or_gt_of_ne hne with hlt | hlt
    · have hbelow := hx.le_sub_of_lt hy hlt
      rw [abs_of_nonneg (a := q - y.value) (by linarith)]
      refine ⟨abs_le.mpr ⟨by linarith, by linarith⟩, fun h => ?_⟩
      have hstrict := hodd h
      exact abs_lt.mpr ⟨by linarith, by linarith⟩
    · have habove := hx.add_le_of_lt hy hlt
      rw [abs_of_nonpos (a := q - y.value) (by linarith)]
      refine ⟨abs_le.mpr ⟨by linarith, by linarith⟩, fun h => ?_⟩
      have hstrict := hodd h
      exact abs_lt.mpr ⟨by linarith, by linarith⟩
  by_cases heven : x.significand % 2 = 0
  · exact hdist.1.lt_or_eq.imp_right fun heq => ⟨heq, heven⟩
  · exact .inl (hdist.2 heven)

end

/-! ### Quotients -/

/-- A scaled quotient has a denominator. -/
theorem scale_pos (num : ℕ) {den : ℕ} (hden : 0 < den) (e : ℤ) : 0 < (scale num den e).2 := by
  rw [scale]
  split_ifs
  · exact hden
  · exact Nat.mul_pos hden (Nat.pow_pos two_pos)

/-- **A scaled quotient.** -/
theorem scale_div (num den : ℕ) (e : ℤ) :
    ((scale num den e).1 : ℚ) / (scale num den e).2 = num / den * 2 ^ e := by
  rw [scale]
  split_ifs with he
  · lift e to ℕ using he
    simp only [Int.toNat_natCast, Nat.pow_eq, Nat.cast_mul, Nat.cast_pow, Nat.cast_ofNat,
      zpow_natCast]
    ring
  · obtain ⟨k, rfl⟩ : ∃ k : ℕ, e = -k := ⟨e.natAbs, by omega⟩
    simp only [neg_neg, Int.toNat_natCast, Nat.pow_eq, Nat.cast_mul, Nat.cast_pow, Nat.cast_ofNat,
      zpow_neg, zpow_natCast]
    rw [div_mul_eq_div_div, div_eq_mul_inv (_ / _)]

/-- What a whole quotient is at least. -/
theorem le_div_iff_le_div {m a b : ℕ} (hb : 0 < b) : m ≤ a / b ↔ (m : ℚ) ≤ a / b := by
  rw [Nat.le_div_iff_mul_le hb, le_div_iff₀ (mod_cast hb)]
  exact_mod_cast Iff.rfl

/-- A quotient is a whole number and a rest. -/
theorem div_eq_add_mod_div (num : ℕ) {den : ℕ} (hden : 0 < den) :
    (num : ℚ) / den = (num / den : ℕ) + (num % den : ℕ) / den := by
  have hdenQ : (0 : ℚ) < den := mod_cast hden
  have hnum : (num : ℚ) = den * (num / den : ℕ) + (num % den : ℕ) := by
    exact_mod_cast (Nat.div_add_mod num den).symm
  rw [hnum]
  field_simp

/-- The quotient is rounded down or up. -/
theorem divideToEven_eq_or (num den : ℕ) :
    divideToEven num den = num / den ∨ divideToEven num den = num / den + 1 := by
  unfold divideToEven
  extract_lets
  split_ifs
  · exact .inl rfl
  · exact .inr rfl

/-- **Rounding a quotient** moves it by at most a half. -/
theorem abs_divideToEven_sub_le (num : ℕ) {den : ℕ} (hden : 0 < den) :
    |(divideToEven num den : ℚ) - num / den| ≤ 1 / 2 := by
  have hdenQ : (0 : ℚ) < den := mod_cast hden
  have hrest : (0 : ℚ) ≤ (num % den : ℕ) / den := by positivity
  have hless : ((num % den : ℕ) : ℚ) / den < 1 := by
    rw [div_lt_one hdenQ]
    exact_mod_cast Nat.mod_lt num hden
  rw [div_eq_add_mod_div num hden, abs_le]
  unfold divideToEven
  extract_lets
  split_ifs with h
  · have hhalf : ((num % den : ℕ) : ℚ) / den ≤ 1 / 2 := by
      rw [div_le_div_iff₀ hdenQ two_pos]
      have : num % den * 2 ≤ 1 * den := by omega
      exact_mod_cast this
    constructor <;> linarith
  · have hhalf : (1 / 2 : ℚ) ≤ ((num % den : ℕ) : ℚ) / den := by
      rw [div_le_div_iff₀ two_pos hdenQ]
      have : 1 * den ≤ num % den * 2 := by omega
      exact_mod_cast this
    push_cast
    constructor <;> linarith

/-- A half is rounded to the even neighbour. -/
theorem divideToEven_even {num den : ℕ} (hden : 0 < den)
    (h : |(divideToEven num den : ℚ) - num / den| = 1 / 2) : divideToEven num den % 2 = 0 := by
  have hdenQ : (0 : ℚ) < den := mod_cast hden
  have hless : ((num % den : ℕ) : ℚ) / den < 1 := by
    rw [div_lt_one hdenQ]
    exact_mod_cast Nat.mod_lt num hden
  have hhalf : ((num % den : ℕ) : ℚ) / den = 1 / 2 := by
    rw [div_eq_add_mod_div num hden] at h
    rcases divideToEven_eq_or num den with heq | heq
    · rwa [heq, sub_add_cancel_left, abs_neg, abs_of_nonneg (by positivity)] at h
    · rw [heq, Nat.cast_add, Nat.cast_one, add_sub_add_left_eq_sub, abs_of_pos (by linarith)] at h
      linarith
  have htie : num % den * 2 = 1 * den := by
    rw [div_eq_div_iff hdenQ.ne' two_ne_zero] at hhalf
    exact_mod_cast hhalf
  unfold divideToEven
  extract_lets
  split_ifs with hdown
  · exact (hdown.resolve_left (by omega)).2
  · omega

/-! ### Rounding -/

/-- A quotient is hardly less than the sizes of its parts tell. -/
theorem two_zpow_le_div {num den : ℕ} (hnum : num ≠ 0) (hden : 0 < den) :
    (2 : ℚ) ^ ((num.log2 : ℤ) - den.log2 - 1) ≤ num / den := by
  have hpow : (2 : ℚ) ^ num.log2 ≤ num := mod_cast Nat.log2_self_le hnum
  have hlt : (den : ℚ) ≤ 2 ^ (den.log2 + 1) := mod_cast Nat.lt_log2_self.le
  have hexp : (num.log2 : ℤ) - den.log2 - 1 = num.log2 - (den.log2 + 1 : ℕ) := by omega
  rw [hexp, zpow_sub₀ two_ne_zero, zpow_natCast, zpow_natCast]
  exact div_le_div₀ (by positivity) hpow (mod_cast hden) hlt

/-- It is hardly more. -/
theorem div_lt_two_zpow (num : ℕ) {den : ℕ} (hden : 0 < den) :
    (num : ℚ) / den < 2 ^ ((num.log2 : ℤ) - den.log2 + 1) := by
  have hpow : (num : ℚ) < 2 ^ (num.log2 + 1) := mod_cast Nat.lt_log2_self
  have hle : (2 : ℚ) ^ den.log2 ≤ den := mod_cast Nat.log2_self_le hden.ne'
  have hexp : (num.log2 : ℤ) - den.log2 + 1 = (num.log2 + 1 : ℕ) - den.log2 := by omega
  rw [hexp, zpow_sub₀ two_ne_zero, zpow_natCast, zpow_natCast]
  exact div_lt_div₀ hpow hle (by positivity) (by positivity)

/-- **The last place** leaves at most 53 bits in front, and all of them if it can. -/
theorem lastPlace_spec {num den : ℕ} (hnum : num ≠ 0) (hden : 0 < den) :
    -1074 ≤ lastPlace num den ∧ (num : ℚ) / den < 2 ^ 53 * 2 ^ lastPlace num den ∧
      (2 ^ 52 * 2 ^ lastPlace num den ≤ (num : ℚ) / den ∨ lastPlace num den = -1074) := by
  have hlow := two_zpow_le_div hnum hden
  have hhigh := div_lt_two_zpow num hden
  obtain ⟨place, hplace⟩ : ∃ place, max (-1074) ((num.log2 : ℤ) - den.log2 - 53) = place :=
    ⟨_, rfl⟩
  obtain ⟨a, b, hscale⟩ : ∃ a b, scale num den (-place) = (a, b) := ⟨_, _, rfl⟩
  have hb : 0 < b := by simpa [hscale] using scale_pos num hden (-place)
  have hpos : (0 : ℚ) < 2 ^ place := by positivity
  have hdef : lastPlace num den = if a / b < 2 ^ 53 then place else place + 1 := by
    have hbit : 2 * hiddenBit = 2 ^ 53 := rfl
    unfold lastPlace
    simp only [hplace, hscale, hbit]
  have hwhole : a / b < 2 ^ 53 ↔ (num : ℚ) / den < 2 ^ 53 * 2 ^ place := by
    have hquot := scale_div num den (-place)
    rw [hscale, zpow_neg, ← div_eq_mul_inv] at hquot
    rw [← not_le, le_div_iff_le_div hb, hquot, le_div_iff₀ hpos, not_le]
    norm_num
  rw [hdef]
  split_ifs with hlt
  · refine ⟨by omega, hwhole.mp hlt, ?_⟩
    rcases le_or_gt ((num.log2 : ℤ) - den.log2 - 53) (-1074) with hsub | hnormal
    · exact .inr (by omega)
    · have hexp : (num.log2 : ℤ) - den.log2 - 1 = (52 : ℕ) + place := by omega
      rw [hexp, zpow_add₀ two_ne_zero, zpow_natCast] at hlow
      exact .inl hlow
  · have hge := not_lt.mp (mt hwhole.mpr hlt)
    have hsucc : (2 : ℚ) ^ (place + 1) = 2 ^ place * 2 := zpow_add_one₀ two_ne_zero place
    have hbound : (2 : ℚ) ^ ((num.log2 : ℤ) - den.log2 + 1) ≤ 2 ^ ((54 : ℕ) + place) :=
      zpow_le_zpow_right₀ one_le_two (by omega)
    rw [zpow_add₀ two_ne_zero (54 : ℕ), zpow_natCast] at hbound
    refine ⟨by omega, ?_, .inl ?_⟩ <;> rw [hsucc] <;> linarith

/-- **Rounding at the last place** gives the nearest double. -/
theorem roundAt_spec {num den : ℕ} (hden : 0 < den) {place : ℤ} (hplace : -1074 ≤ place)
    (hlt : (num : ℚ) / den < 2 ^ 53 * 2 ^ place)
    (hnormal : 2 ^ 52 * 2 ^ place ≤ (num : ℚ) / den ∨ place = -1074) :
    (roundAt num den place).Canonical ∧ (roundAt num den place).IsNearest (num / den) := by
  obtain ⟨a, b, hscale⟩ : ∃ a b, scale num den (-place) = (a, b) := ⟨_, _, rfl⟩
  have hb : 0 < b := by simpa [hscale] using scale_pos num hden (-place)
  have hpos : (0 : ℚ) < 2 ^ place := by positivity
  have hquot : (num : ℚ) / den = a / b * 2 ^ place := by
    have h := scale_div num den (-place)
    rw [hscale, zpow_neg, ← div_eq_mul_inv] at h
    rw [h, div_mul_cancel₀ _ hpos.ne']
  have hdef : roundAt num den place =
      if divideToEven a b < 2 ^ 53 then ⟨divideToEven a b, place⟩ else ⟨2 ^ 52, place + 1⟩ := by
    have hbit : hiddenBit = 2 ^ 52 := rfl
    unfold roundAt
    simp only [hscale, hbit]
    rfl
  have hclose := abs_le.mp (abs_divideToEven_sub_le a hb)
  rw [hquot] at hlt hnormal ⊢
  have hless : (a : ℚ) / b < 2 ^ 53 := lt_of_mul_lt_mul_right hlt hpos.le
  have hhidden : 2 ^ 52 ≤ divideToEven a b ∧ (2 ^ 52 : ℚ) ≤ a / b ∨ place = -1074 := by
    refine hnormal.imp_left fun h => ?_
    have hge : (2 ^ 52 : ℚ) ≤ a / b := le_of_mul_le_mul_right h hpos
    have hwhole : 2 ^ 52 ≤ a / b := (le_div_iff_le_div hb).mpr (mod_cast hge)
    rcases divideToEven_eq_or a b with heq | heq <;> exact ⟨by omega, hge⟩
  have hodd : divideToEven a b % 2 ≠ 0 → (divideToEven a b : ℚ) - 1 / 2 < a / b ∧
      (a : ℚ) / b < divideToEven a b + 1 / 2 := by
    intro h
    have hne := mt (divideToEven_even hb) h
    have hstrict := abs_lt.mp (lt_of_le_of_ne (abs_divideToEven_sub_le a hb) hne)
    constructor <;> linarith
  rw [hdef]
  split_ifs with hsmall
  · have hx : (⟨divideToEven a b, place⟩ : Binary64).Canonical :=
      ⟨hsmall, hplace, hhidden.imp_left And.left⟩
    refine ⟨hx, hx.isNearest ?_ ?_ fun hsig => ⟨?_, ?_⟩⟩
    · rw [value, gapBelow]
      split_ifs with hlowest
      · obtain ⟨-, hge⟩ := hhidden.resolve_right hlowest.2.ne'
        have hscaled := mul_le_mul_of_nonneg_right hge hpos.le
        rw [hlowest.1]
        push_cast
        linarith
      · have hscaled := mul_le_mul_of_nonneg_right hclose.2 hpos.le
        linarith
    · have hscaled := mul_le_mul_of_nonneg_right hclose.1 hpos.le
      rw [value]
      linarith
    · have hscaled := mul_lt_mul_of_pos_right (hodd hsig).1 hpos
      have heven : ¬ (divideToEven a b = 2 ^ 52 ∧ -1074 < place) := fun h => by
        rw [h.1] at hsig
        norm_num at hsig
      rw [value, gapBelow, if_neg heven]
      linarith
    · have hscaled := mul_lt_mul_of_pos_right (hodd hsig).2 hpos
      rw [value]
      linarith
  · -- rounding up has made the significand a power of two
    have hx : (⟨2 ^ 52, place + 1⟩ : Binary64).Canonical :=
      ⟨by norm_num, by simp only; omega, .inl (le_refl _)⟩
    have hsucc : (2 : ℚ) ^ (place + 1) = 2 ^ place * 2 := zpow_add_one₀ two_ne_zero place
    have hvalue : (⟨2 ^ 52, place + 1⟩ : Binary64).value = 2 ^ 53 * 2 ^ place := by
      rw [value, hsucc]
      push_cast
      ring
    have hge : (2 ^ 53 : ℚ) ≤ divideToEven a b := mod_cast not_lt.mp hsmall
    have hscaled := mul_le_mul_of_nonneg_right
      (show (2 ^ 53 : ℚ) - 1 / 2 ≤ a / b by linarith) hpos.le
    refine ⟨hx, hx.isNearest ?_ ?_ fun hsig => absurd (by norm_num) hsig⟩
    · rw [hvalue, gapBelow, if_pos ⟨rfl, by simp only; omega⟩, hsucc]
      linarith
    · rw [hvalue, hsucc]
      linarith

/-- Zero is nearest to zero. -/
theorem isNearest_zero : zero.Canonical ∧ zero.IsNearest 0 := by
  have hzero : zero.Canonical := ⟨by norm_num [zero], le_refl _, .inr rfl⟩
  have hvalue : zero.value = 0 := by simp [value, zero]
  have hgap := zero.gapBelow_pos
  refine ⟨hzero, hzero.isNearest ?_ ?_ fun hodd => absurd rfl hodd⟩ <;> rw [hvalue]
  · linarith
  · positivity

/-- **Rounding gives the nearest double**, in its one form. -/
theorem round_spec {num den : ℕ} (hden : 0 < den) {e : ℤ} {x : Binary64}
    (h : round num den e = some x) : x.Canonical ∧ x.IsNearest (num / den * 2 ^ e) := by
  rw [round] at h
  split_ifs at h with hnum
  · cases h
    simpa [hnum] using isNearest_zero
  · have hne : (scale num den e).1 ≠ 0 := by
      rw [scale]
      split_ifs
      · exact Nat.mul_ne_zero hnum (Nat.pow_pos two_pos).ne'
      · exact hnum
    have hpos := scale_pos num hden e
    obtain ⟨hplace, hlt, hnormal⟩ := lastPlace_spec hne hpos
    have hspec := roundAt_spec hpos hplace hlt hnormal
    simp only at h
    split_ifs at h
    cases h
    rwa [scale_div] at hspec

/-- **The rounded product.** -/
theorem mul_spec {x y z : Binary64} (h : x.mul y = some z) :
    z.Canonical ∧ z.IsNearest (x.value * y.value) := by
  have hvalue : x.value * y.value =
      ((x.significand * y.significand : ℕ) : ℚ) / (1 : ℕ) * 2 ^ (x.exponent + y.exponent) := by
    rw [value, value, zpow_add₀ two_ne_zero]
    push_cast
    ring
  rw [hvalue]
  exact round_spec one_pos h

/-- **The rounded quotient.** -/
theorem div_spec {x y z : Binary64} (hy : y.significand ≠ 0) (h : x.div y = some z) :
    z.Canonical ∧ z.IsNearest (x.value / y.value) := by
  have hvalue : x.value / y.value =
      (x.significand : ℚ) / y.significand * 2 ^ (x.exponent - y.exponent) := by
    rw [value, value, zpow_sub₀ two_ne_zero]
    field_simp
  rw [hvalue]
  exact round_spec (Nat.pos_of_ne_zero hy) h

end TrustedHtml.Binary64
