import TrustedHtml.Decimal.Shortest
import TrustedHtml.Proofs.NearestDoubles

/-!
# Shortest Decimals

The search for the shortest decimal of a double tries grids of decimals, from the coarsest one on,
and on each of them the two decimals next to the double. It stops at the first one that lies in the
interval of the numbers that round to the double.

So what it finds rounds to the double, if it finds anything. It does: on the grid of 17 digits the
nearest decimal is at most half a unit away, and a unit there is at most `10 ^ -16` times the
double, while the distances to the doubles next to it are at least `2 ^ -53` times the double, which
is more.

## Main definitions

* `Decimal.value`: the number that a decimal stands for.

## Main results

* `Binary64.readsBack_iff`: the decimals that read back as a double are those of an interval.
* `Binary64.Canonical.readsBack_of_abs_sub_le`: 17 digits are enough.
* `Binary64.Canonical.isNearest_shortest`: **the shortest decimal of a double rounds to it.**
-/

namespace TrustedHtml

/-- The number that a decimal stands for. -/
def Decimal.value (d : Decimal) : ℚ :=
  d.digits * 10 ^ d.exponent

/-- A decimal has a denominator. -/
theorem Decimal.ratio_pos (d : Decimal) : 0 < d.ratio.2 := by
  rw [ratio]
  split_ifs
  · exact one_pos
  · exact Nat.pow_pos (by norm_num)

/-- A decimal as a quotient. -/
theorem Decimal.ratio_div (d : Decimal) : (d.ratio.1 : ℚ) / d.ratio.2 = d.value := by
  obtain ⟨digits, e⟩ := d
  rw [ratio, value]
  split_ifs with he
  · lift e to ℕ using he
    simp
  · obtain ⟨k, rfl⟩ : ∃ k : ℕ, e = -k := ⟨e.natAbs, by simp only at he; omega⟩
    simp [div_eq_mul_inv]

namespace Binary64

variable {x : Binary64} {d : Decimal}

/-! ### The interval of a double -/

/-- Comparing quotients. -/
theorem mul_le_mul_iff_div_le_div {a b c d : ℕ} (hb : 0 < b) (hd : 0 < d) :
    a * d ≤ c * b ↔ (a : ℚ) / b ≤ c / d := by
  rw [div_le_div_iff₀ (mod_cast hb) (mod_cast hd)]
  exact_mod_cast Iff.rfl

/-- Comparing quotients strictly. -/
theorem mul_lt_mul_iff_div_lt_div {a b c d : ℕ} (hb : 0 < b) (hd : 0 < d) :
    a * d < c * b ↔ (a : ℚ) / b < c / d := by
  rw [div_lt_div_iff₀ (mod_cast hb) (mod_cast hd)]
  exact_mod_cast Iff.rfl

/-- The upper end of the interval is half a unit of the last place above. -/
theorem highEnd_eq (x : Binary64) :
    (x.roundingInterval.2 : ℚ) / 4 * 2 ^ x.exponent = x.value + 2 ^ x.exponent / 2 := by
  simp only [roundingInterval, value]
  push_cast
  ring

/-- The lower end of the interval is half way to the double below. -/
theorem lowEnd_eq (h : x.significand ≠ 0) :
    (x.roundingInterval.1 : ℚ) / 4 * 2 ^ x.exponent = x.value - x.gapBelow / 2 := by
  have hfour : 4 ≤ 4 * x.significand := by omega
  have hbit : hiddenBit = 2 ^ 52 := rfl
  simp only [roundingInterval, value, gapBelow, hbit]
  split_ifs
  all_goals
    rw [Nat.cast_sub (by omega)]
    push_cast
    ring

/-- **The decimals that read back as a double** are those of its interval. -/
theorem readsBack_iff : x.readsBack d = true ↔
    if x.significand % 2 = 0 then
      (x.roundingInterval.1 : ℚ) / 4 * 2 ^ x.exponent ≤ d.value ∧
        d.value ≤ x.value + 2 ^ x.exponent / 2
    else
      (x.roundingInterval.1 : ℚ) / 4 * 2 ^ x.exponent < d.value ∧
        d.value < x.value + 2 ^ x.exponent / 2 := by
  have hpos : ∀ count, 0 < (x.quarters count).2 := fun _ => scale_pos _ (by norm_num) _
  have hdiv : ∀ count, ((x.quarters count).1 : ℚ) / (x.quarters count).2 =
      count / 4 * 2 ^ x.exponent := fun count => scale_div count 4 x.exponent
  rw [← x.highEnd_eq, ← hdiv, ← hdiv, ← d.ratio_div]
  simp only [readsBack]
  split_ifs
  · rw [Bool.and_eq_true, decide_eq_true_iff, decide_eq_true_iff,
      mul_le_mul_iff_div_le_div (hpos _) d.ratio_pos,
      mul_le_mul_iff_div_le_div d.ratio_pos (hpos _)]
  · rw [Bool.and_eq_true, decide_eq_true_iff, decide_eq_true_iff,
      mul_lt_mul_iff_div_lt_div (hpos _) d.ratio_pos,
      mul_lt_mul_iff_div_lt_div d.ratio_pos (hpos _)]

/-- **What reads back as a double rounds to it.** -/
theorem Canonical.isNearest_of_readsBack (hx : x.Canonical) (h : x.readsBack d = true) :
    x.IsNearest d.value := by
  have hlow : x.value - x.gapBelow / 2 ≤ (x.roundingInterval.1 : ℚ) / 4 * 2 ^ x.exponent := by
    by_cases hzero : x.significand = 0
    · have hvalue : x.value = 0 := by simp [value, hzero]
      have hend : (0 : ℚ) ≤ (x.roundingInterval.1 : ℚ) / 4 * 2 ^ x.exponent := by positivity
      have hgap := x.gapBelow_pos
      linarith
    · exact (lowEnd_eq hzero).ge
  rw [readsBack_iff] at h
  split_ifs at h with heven
  · exact hx.isNearest (hlow.trans h.1) h.2 fun hodd => absurd heven hodd
  · exact hx.isNearest (hlow.trans h.1.le) h.2.le fun _ => ⟨hlow.trans_lt h.1, h.2⟩

/-- What lies strictly in the interval reads back. -/
theorem readsBack_of_lt (hx : x.significand ≠ 0) (hlow : x.value - x.gapBelow / 2 < d.value)
    (hhigh : d.value < x.value + 2 ^ x.exponent / 2) : x.readsBack d = true := by
  rw [readsBack_iff, lowEnd_eq hx]
  split_ifs
  · exact ⟨hlow.le, hhigh.le⟩
  · exact ⟨hlow, hhigh⟩

/-! ### Grids of decimals -/

/-- A double as a quotient. -/
theorem exists_scale_eq (x : Binary64) : ∃ num den : ℕ,
    scale x.significand 1 x.exponent = (num, den) ∧ 0 < den ∧ (num : ℚ) / den = x.value := by
  refine ⟨(scale x.significand 1 x.exponent).1, (scale x.significand 1 x.exponent).2, rfl,
    scale_pos _ one_pos _, ?_⟩
  rw [scale_div, Nat.cast_one, div_one, value]

/-- Every double that is not zero has a digit among its first 330 decimal places. -/
theorem Canonical.one_le_value_mul (hx : x.Canonical) (hsig : x.significand ≠ 0) :
    1 ≤ x.value * 10 ^ 330 := by
  have hleast : (2 : ℚ) ^ (-1074 : ℤ) ≤ x.value := by
    refine (zpow_le_zpow_right₀ one_le_two hx.exponent_ge).trans ?_
    exact le_mul_of_one_le_left (by positivity) (mod_cast Nat.one_le_iff_ne_zero.mpr hsig)
  have hpow : (2 : ℚ) ^ 1074 ≤ 10 ^ 330 :=
    calc (2 : ℚ) ^ 1074 ≤ 2 ^ (99 * 11) := pow_le_pow_right₀ one_le_two (by norm_num)
      _ = (2 ^ 99) ^ 11 := pow_mul ..
      _ ≤ (10 ^ 30) ^ 11 := pow_le_pow_left₀ (by positivity) (by norm_num) 11
      _ = 10 ^ 330 := (pow_mul ..).symm
  calc (1 : ℚ) = 2 ^ (-1074 : ℤ) * 2 ^ 1074 := by
        rw [zpow_neg]
        exact (inv_mul_cancel₀ (by positivity)).symm
    _ ≤ x.value * 10 ^ 330 := mul_le_mul hleast hpow (by positivity) x.value_nonneg

/-- A number is at least what its first digit stands for. -/
theorem pow_length_toDigits_le {n : ℕ} (hn : 0 < n) :
    10 ^ ((Nat.toDigits 10 n).length - 1) ≤ n := by
  rcases Nat.lt_or_ge 1 (Nat.toDigits 10 n).length with hlong | hshort
  · by_contra hlt
    have hle := (Nat.length_toDigits_le_iff (by norm_num) (by omega)).mpr (not_le.mp hlt)
    omega
  · rw [Nat.sub_eq_zero_of_le hshort]
    exact hn

/-- **A double is at least what its first digit stands for.** -/
theorem Canonical.pow_firstDigitExponent_le (hx : x.Canonical) (hsig : x.significand ≠ 0) :
    (10 : ℚ) ^ x.firstDigitExponent ≤ x.value := by
  obtain ⟨num, den, hscale, hden, hvalue⟩ := x.exists_scale_eq
  -- the first 330 decimal places, as a natural number
  obtain ⟨places, hplaces⟩ : ∃ places, num * 10 ^ 330 / den = places := ⟨_, rfl⟩
  have hle : (places : ℚ) ≤ x.value * 10 ^ 330 := by
    rw [← hvalue, ← hplaces, div_mul_eq_mul_div]
    refine Nat.cast_div_le.trans_eq ?_
    rw [Nat.cast_mul, Nat.cast_pow, Nat.cast_ofNat]
  have hpos : 0 < places := by
    rw [← hplaces]
    refine Nat.div_pos ?_ hden
    have h := hx.one_le_value_mul hsig
    rw [← hvalue, div_mul_eq_mul_div, one_le_div (mod_cast hden)] at h
    exact_mod_cast h
  have hfirst : x.firstDigitExponent =
      (((Nat.toDigits 10 places).length - 1 : ℕ) : ℤ) - (330 : ℕ) := by
    have hlength := Nat.length_toDigits_pos (b := 10) (n := places)
    rw [firstDigitExponent, hscale]
    simp only [Nat.pow_eq, hplaces]
    omega
  rw [hfirst, zpow_sub₀ (by norm_num), zpow_natCast, zpow_natCast, div_le_iff₀ (by positivity)]
  exact le_trans (mod_cast pow_length_toDigits_le hpos) hle

/-- **The first neighbour** of a double on a grid is at most half a unit away. -/
theorem exists_neighboursAt_eq (x : Binary64) (e : ℤ) : ∃ nearest other : Decimal,
    x.neighboursAt e = [nearest, other].filter x.readsBack ∧
      |nearest.value - x.value| ≤ 10 ^ e / 2 := by
  obtain ⟨num, den, hscale, hden, hvalue⟩ := x.exists_scale_eq
  -- the double in units of the grid
  obtain ⟨a, b, hpair, hb, hunits⟩ : ∃ a b, (if 0 ≤ e then (num, den * Nat.pow 10 e.toNat)
      else (num * Nat.pow 10 (-e).toNat, den)) = (a, b) ∧ 0 < b ∧ x.value = a / b * 10 ^ e := by
    split_ifs with he
    · lift e to ℕ using he
      refine ⟨_, _, rfl, Nat.mul_pos hden (Nat.pow_pos (by norm_num)), ?_⟩
      rw [← hvalue, Int.toNat_natCast, zpow_natCast, Nat.pow_eq]
      push_cast
      field_simp
    · obtain ⟨k, rfl⟩ : ∃ k : ℕ, e = -k := ⟨e.natAbs, by omega⟩
      refine ⟨_, _, rfl, hden, ?_⟩
      rw [← hvalue, neg_neg, Int.toNat_natCast, zpow_neg, zpow_natCast, Nat.pow_eq]
      push_cast
      field_simp
  refine ⟨⟨divideToEven a b, e⟩,
    ⟨if divideToEven a b = a / b then a / b + 1 else a / b, e⟩, ?_, ?_⟩
  · rw [neighboursAt, hscale]
    simp only [hpair]
  · have hpos : (0 : ℚ) < 10 ^ e := by positivity
    calc |(⟨divideToEven a b, e⟩ : Decimal).value - x.value|
        = |(divideToEven a b : ℚ) - a / b| * 10 ^ e := by
          rw [hunits, Decimal.value, ← sub_mul, abs_mul, abs_of_pos hpos]
      _ ≤ 1 / 2 * 10 ^ e := mul_le_mul_of_nonneg_right (abs_divideToEven_sub_le a hb) hpos.le
      _ = 10 ^ e / 2 := by ring

/-! ### The search -/

/-- **17 digits are enough**: what is at most half a unit away on their grid reads back. -/
theorem Canonical.readsBack_of_abs_sub_le (hx : x.Canonical) (hsig : x.significand ≠ 0)
    (hd : |d.value - x.value| ≤ 10 ^ (x.firstDigitExponent - (17 : ℕ) + 1) / 2) :
    x.readsBack d = true := by
  have hpos : (0 : ℚ) < 2 ^ x.exponent := by positivity
  have hunit : (10 : ℚ) ^ (x.firstDigitExponent - (17 : ℕ) + 1) ≤ x.value / 10 ^ 16 := by
    have hexp : x.firstDigitExponent - (17 : ℕ) + 1 = x.firstDigitExponent - (16 : ℕ) := by omega
    rw [hexp, zpow_sub₀ (by norm_num), zpow_natCast]
    exact div_le_div_of_nonneg_right (hx.pow_firstDigitExponent_le hsig) (by positivity)
  have hclose := abs_le.mp (hd.trans (div_le_div_of_nonneg_right hunit two_pos.le))
  have hvalue : x.value < 2 ^ 53 * 2 ^ x.exponent :=
    mul_lt_mul_of_pos_right (mod_cast hx.significand_lt) hpos
  refine readsBack_of_lt hsig ?_ (by linarith)
  rw [gapBelow]
  split_ifs with hlowest
  · have heq : x.value = 2 ^ 52 * 2 ^ x.exponent := by rw [value, hlowest.1]; norm_num
    linarith
  · linarith

/-- **The shortest decimal of a double reads back as it.** -/
theorem Canonical.readsBack_shortest (hx : x.Canonical) : x.readsBack x.shortest = true := by
  rw [shortest]
  split_ifs with hzero
  · have hsig : x.significand = 0 := by simpa [isZero] using hzero
    have hend : (0 : ℚ) ≤ x.value + 2 ^ x.exponent / 2 :=
      add_nonneg x.value_nonneg (by positivity)
    simpa [readsBack_iff, hsig, roundingInterval, hiddenBit, Decimal.value] using hend
  · have hsig : x.significand ≠ 0 := by simpa [isZero] using hzero
    cases hfound : (List.range 17).findSome? fun n => (x.neighbours (n + 1)).head? with
    | some d =>
        obtain ⟨n, -, hhead⟩ := List.exists_of_findSome?_eq_some hfound
        obtain ⟨nearest, other, hneighbours, -⟩ := x.exists_neighboursAt_eq
          (x.firstDigitExponent - (n + 1 : ℕ) + 1)
        have hmem := List.mem_of_mem_head? hhead
        rw [neighbours, hneighbours] at hmem
        exact (List.mem_filter.mp hmem).2
    | none =>
        have hnone := List.findSome?_eq_none_iff.mp hfound 16 (by simp)
        obtain ⟨nearest, other, hneighbours, hclose⟩ := x.exists_neighboursAt_eq
          (x.firstDigitExponent - (17 : ℕ) + 1)
        rw [neighbours, hneighbours,
          List.filter_cons_of_pos (hx.readsBack_of_abs_sub_le hsig hclose)] at hnone
        cases hnone

/-- **The shortest decimal of a double rounds to it.** -/
theorem Canonical.isNearest_shortest (hx : x.Canonical) : x.IsNearest x.shortest.value :=
  hx.isNearest_of_readsBack hx.readsBack_shortest

end Binary64

end TrustedHtml
