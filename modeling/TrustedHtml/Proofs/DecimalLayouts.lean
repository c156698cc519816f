import TrustedHtml.Proofs.NumberTexts
import TrustedHtml.Proofs.ShortestDecimals

/-!
# Layouts of Decimals

The shortest writer gives an integer its digits, and a double the shortest decimal. How the digits
of a decimal are laid out depends on the exponent of the first one: behind zeros, around a point,
with zeros behind them, or with the exponent. Whatever the layout is, the text has the parts of a
number, they stand for the decimal, and the text is not one of an integer.

## Main definitions

* `Decimal.WrittenAs`: a decimal is written with these parts.

## Main results

* `Decimal.value_eq`: a decimal told by its significant digits.
* `Decimal.exists_writtenAs`: **every decimal is written with parts that stand for it.**
* `Json.shortestWriter_faithful`: **the shortest writer is faithful.**
-/

namespace TrustedHtml

namespace Decimal

open Json Json.Reader

variable {d : Decimal}

/-- The digits of a decimal are its significant digits and zeros. -/
theorem exists_toDigits_eq (hd : d.digits ≠ 0) :
    ∃ k, Nat.toDigits 10 d.digits = d.significantDigits ++ List.replicate k '0' := by
  obtain ⟨T, hT⟩ : ∃ T, Nat.toDigits 10 d.digits = T := ⟨_, rfl⟩
  have hsplit : T = (T.reverse.dropWhile (· == '0')).reverse ++
      List.replicate (T.reverse.takeWhile (· == '0')).length '0' := by
    have hzeros : T.reverse.takeWhile (· == '0') =
        List.replicate (T.reverse.takeWhile (· == '0')).length '0' :=
      List.eq_replicate_of_mem fun c hc => by simpa using List.mem_takeWhile_imp hc
    calc T = (T.reverse.takeWhile (· == '0') ++ T.reverse.dropWhile (· == '0')).reverse := by
          rw [List.takeWhile_append_dropWhile, List.reverse_reverse]
      _ = (T.reverse.dropWhile (· == '0')).reverse ++ (T.reverse.takeWhile (· == '0')).reverse :=
          List.reverse_append
      _ = _ := congrArg _ (by conv_lhs => rw [hzeros, List.reverse_replicate])
  refine ⟨_, (hT.trans hsplit).trans (congrArg (· ++ _) ?_)⟩
  rw [significantDigits, hT]
  split
  · rename_i hnil
    rw [hnil, List.nil_append] at hsplit
    have hvalue := value_toDigits d.digits
    rw [hT, hsplit, ← List.nil_append (List.replicate _ _), value_append_replicate] at hvalue
    exact absurd (hvalue.symm.trans (Nat.zero_mul _)) hd
  · rfl

/-- Significant digits are digits of the number. -/
theorem isDigit_of_mem_significantDigits (hd : d.digits ≠ 0) :
    ∀ c ∈ d.significantDigits, c.isDigit = true := by
  obtain ⟨k, hk⟩ := exists_toDigits_eq hd
  intro c hc
  exact isDigit_of_mem_toDigits (hk ▸ List.mem_append_left _ hc)

/-- There are some. -/
theorem significantDigits_ne_nil (d : Decimal) : d.significantDigits ≠ [] := by
  rw [significantDigits]
  split
  · exact List.cons_ne_nil _ _
  · assumption

/-- The first of them is not zero. -/
theorem head?_significantDigits_ne (hd : d.digits ≠ 0) : d.significantDigits.head? ≠ some '0' := by
  obtain ⟨k, hk⟩ := exists_toDigits_eq hd
  have h := head?_toDigits_ne hd
  rwa [hk, List.head?_append_of_ne_nil _ d.significantDigits_ne_nil] at h

/-- **A decimal told by its significant digits** and by the exponent of the first one. -/
theorem value_eq (hd : d.digits ≠ 0) :
    d.value = Reader.value d.significantDigits *
      10 ^ (d.magnitude + 1 - d.significantDigits.length) := by
  obtain ⟨k, hk⟩ := exists_toDigits_eq hd
  have hvalue := value_toDigits d.digits
  rw [hk, value_append_replicate] at hvalue
  have hexponent : d.magnitude + 1 - d.significantDigits.length = d.exponent + k := by
    rw [magnitude, hk, List.length_append, List.length_replicate]
    omega
  rw [hexponent, zpow_add₀ (by norm_num), value, ← hvalue]
  push_cast
  rw [zpow_natCast]
  ring

/-! ### Layouts -/

/-- **A decimal is written with these parts.** -/
structure WrittenAs (d : Decimal) (t : NumberText) : Prop where
  text : d.text.toList = t.chars
  regular : t.Regular
  positive : t.isNegative = false
  /-- The text does not look like that of an integer. -/
  marked : t.fraction ≠ none ∨ t.exponent ≠ none
  /-- It says what the decimal is. -/
  magnitude : t.magnitude = d.value

/-- Zero. -/
theorem writtenAs_zero (hd : d.digits = 0) : d.WrittenAs ⟨false, ['0'], some ['0'], none⟩ where
  text := by
    rw [text, if_pos hd, String.toList_ofList]
    rfl
  regular := ⟨by simp, by simp, .inl rfl, by simp⟩
  positive := rfl
  marked := .inl nofun
  magnitude := by
    simp [NumberText.magnitude, value_eq_ofDigitChars, Nat.ofDigitChars, value, hd]

/-- A number below one, positionally. -/
theorem writtenAs_small (hd : d.digits ≠ 0) (hlow : -5 ≤ d.magnitude) (hhigh : d.magnitude < 0) :
    d.WrittenAs ⟨false, ['0'],
      some (List.replicate (-d.magnitude - 1).toNat '0' ++ d.significantDigits), none⟩ where
  text := by
    rw [text, if_neg hd, if_pos ⟨hlow, hhigh⟩, String.toList_ofList]
    simp [NumberText.chars, NumberText.signChars, NumberText.fractionChars,
      NumberText.exponentChars]
  regular := by
    refine ⟨by simp, by simp, .inl rfl, ?_⟩
    rintro places ⟨⟩
    refine ⟨List.append_ne_nil_of_right_ne_nil _ d.significantDigits_ne_nil, fun c hc => ?_⟩
    rcases List.mem_append.mp hc with hc | hc
    · rw [List.eq_of_mem_replicate hc]
      rfl
    · exact isDigit_of_mem_significantDigits hd c hc
  positive := rfl
  marked := .inl nofun
  magnitude := by
    have hwhole : ['0'] ++ (List.replicate (-d.magnitude - 1).toNat '0' ++ d.significantDigits) =
        List.replicate ((-d.magnitude - 1).toNat + 1) '0' ++ d.significantDigits := by
      rw [List.replicate_succ]
      rfl
    have hexponent : (0 : ℤ) -
        (List.replicate (-d.magnitude - 1).toNat '0' ++ d.significantDigits).length =
          d.magnitude + 1 - d.significantDigits.length := by
      rw [List.length_append, List.length_replicate]
      omega
    rw [NumberText.magnitude, value_eq hd]
    simp only [Option.getD_some, Option.getD_none, hwhole, value_replicate_append, hexponent]

/-- The first digits of a decimal are not a leading zero. -/
theorem head?_take_append_ne (hd : d.digits ≠ 0) {count : ℕ} (hcount : count ≠ 0)
    (rest : List Char) : (d.significantDigits.take count ++ rest).head? ≠ some '0' := by
  have hfirst := head?_significantDigits_ne hd
  obtain ⟨c, cs, hcons⟩ := List.exists_cons_of_ne_nil d.significantDigits_ne_nil
  obtain ⟨count, rfl⟩ := Nat.exists_eq_succ_of_ne_zero hcount
  rw [hcons] at hfirst ⊢
  exact hfirst

/-- Digits of a decimal are digits. -/
theorem isDigit_of_mem_take (hd : d.digits ≠ 0) {count : ℕ} :
    ∀ c ∈ d.significantDigits.take count, c.isDigit = true :=
  fun c hc => isDigit_of_mem_significantDigits hd c (List.mem_of_mem_take hc)

/-- Those behind them are. -/
theorem isDigit_of_mem_drop (hd : d.digits ≠ 0) {count : ℕ} :
    ∀ c ∈ d.significantDigits.drop count, c.isDigit = true :=
  fun c hc => isDigit_of_mem_significantDigits hd c (List.mem_of_mem_drop hc)

/-- A number of moderate size, positionally. -/
theorem writtenAs_moderate (hd : d.digits ≠ 0) (hlow : 0 ≤ d.magnitude)
    (hhigh : d.magnitude ≤ 15) :
    d.WrittenAs ⟨false,
      d.significantDigits.take (d.magnitude.toNat + 1) ++
        List.replicate (d.magnitude.toNat + 1 - d.significantDigits.length) '0',
      some (if (d.significantDigits.drop (d.magnitude.toNat + 1)).isEmpty then ['0']
        else d.significantDigits.drop (d.magnitude.toNat + 1)), none⟩ where
  text := by
    rw [text, if_neg hd, if_neg (by omega), if_pos ⟨hlow, hhigh⟩, String.toList_ofList]
    simp [NumberText.chars, NumberText.signChars, NumberText.fractionChars,
      NumberText.exponentChars]
  regular := by
    refine ⟨?_, ?_, .inr (head?_take_append_ne hd (by omega) _), ?_⟩
    · intro c hc
      rcases List.mem_append.mp hc with hc | hc
      · exact isDigit_of_mem_take hd c hc
      · rw [List.eq_of_mem_replicate hc]
        rfl
    · simp [d.significantDigits_ne_nil]
    · rintro places ⟨⟩
      split_ifs with hempty
      · simp
      · exact ⟨by simpa using hempty, isDigit_of_mem_drop hd⟩
  positive := rfl
  marked := .inl nofun
  magnitude := by
    obtain ⟨whole, hwhole⟩ : ∃ whole : ℕ, d.magnitude + 1 = whole :=
      ⟨_, (Int.toNat_of_nonneg (by omega)).symm⟩
    have htoNat : d.magnitude.toNat + 1 = whole := by omega
    rw [NumberText.magnitude, value_eq hd, htoNat, hwhole]
    simp only [Option.getD_some, Option.getD_none]
    rcases le_or_gt d.significantDigits.length whole with hshort | hlong
    · -- all digits are in front of the point, and zeros behind them
      obtain ⟨k, rfl⟩ := Nat.exists_eq_add_of_le hshort
      have hzeros : List.replicate k '0' ++ ['0'] = List.replicate (k + 1) '0' :=
        List.replicate_succ'.symm
      rw [List.take_of_length_le hshort, List.drop_of_length_le hshort, Nat.add_sub_cancel_left]
      simp only [List.isEmpty_nil, if_true, List.append_assoc, hzeros, value_append_replicate]
      have hexponent : ((d.significantDigits.length + k : ℕ) : ℤ) -
          d.significantDigits.length = k := by omega
      rw [hexponent, zpow_natCast, List.length_singleton]
      push_cast
      rw [pow_succ]
      norm_num
      ring
    · -- the point is among the digits
      have hdrop : (d.significantDigits.drop whole).isEmpty = false := by
        simpa using hlong
      have hexponent : (0 : ℤ) - (d.significantDigits.drop whole).length =
          whole - d.significantDigits.length := by
        rw [List.length_drop]
        omega
      rw [Nat.sub_eq_zero_of_le hlong.le, List.replicate_zero, List.append_nil]
      simp only [hdrop, Bool.false_eq_true, if_false, List.take_append_drop, hexponent]

/-- A number of another size, with its exponent. -/
theorem writtenAs_scientific (hd : d.digits ≠ 0) (hsmall : ¬(-5 ≤ d.magnitude ∧ d.magnitude < 0))
    (hmoderate : ¬(0 ≤ d.magnitude ∧ d.magnitude ≤ 15)) :
    d.WrittenAs ⟨false, d.significantDigits.take 1,
      if (d.significantDigits.drop 1).isEmpty then none else some (d.significantDigits.drop 1),
      some d.magnitude⟩ where
  text := by
    rw [text, if_neg hd, if_neg hsmall, if_neg hmoderate, String.toList_ofList]
    simp only [NumberText.chars, NumberText.signChars, NumberText.exponentChars]
    by_cases hempty : (d.significantDigits.drop 1).isEmpty
    · rw [if_pos hempty, if_pos hempty]
      simp [NumberText.fractionChars]
    · rw [if_neg hempty, if_neg hempty]
      simp [NumberText.fractionChars]
  regular := by
    have hlength : (d.significantDigits.take 1).length = 1 := by
      have hlength := List.length_pos_iff.mpr d.significantDigits_ne_nil
      rw [List.length_take]
      omega
    refine ⟨isDigit_of_mem_take hd, List.ne_nil_of_length_eq_add_one hlength, .inl hlength, ?_⟩
    split_ifs with hempty
    · simp
    · rintro places ⟨⟩
      exact ⟨by simpa using hempty, isDigit_of_mem_drop hd⟩
  positive := rfl
  marked := .inr nofun
  magnitude := by
    have hplaces : (if (d.significantDigits.drop 1).isEmpty then none
        else some (d.significantDigits.drop 1)).getD [] = d.significantDigits.drop 1 := by
      split_ifs with hempty
      · exact (List.isEmpty_iff.mp hempty).symm
      · rfl
    have hlength := List.length_pos_iff.mpr d.significantDigits_ne_nil
    have hexponent : d.magnitude - (d.significantDigits.drop 1).length =
        d.magnitude + 1 - d.significantDigits.length := by
      rw [List.length_drop]
      omega
    rw [NumberText.magnitude, value_eq hd]
    simp only [hplaces, List.take_append_drop, Option.getD_some, hexponent]

/-- **Every decimal is written as a number.** -/
theorem exists_writtenAs (d : Decimal) : ∃ t, d.WrittenAs t := by
  by_cases hd : d.digits = 0
  · exact ⟨_, writtenAs_zero hd⟩
  by_cases hsmall : -5 ≤ d.magnitude ∧ d.magnitude < 0
  · exact ⟨_, writtenAs_small hd hsmall.1 hsmall.2⟩
  by_cases hmoderate : 0 ≤ d.magnitude ∧ d.magnitude ≤ 15
  · exact ⟨_, writtenAs_moderate hd hmoderate.1 hmoderate.2⟩
  · exact ⟨_, writtenAs_scientific hd hsmall hmoderate⟩

end Decimal

namespace Json

open Reader

/-- The digits of an integer are the parts of a number. -/
theorem regular_toDigits (isNegative : Bool) (n : ℕ) :
    NumberText.Regular ⟨isNegative, Nat.toDigits 10 n, none, none⟩ where
  whole _ hc := isDigit_of_mem_toDigits hc
  nonempty := Nat.toDigits_ne_nil
  leading := by
    by_cases hn : n = 0
    · simp [hn]
    · exact .inr (head?_toDigits_ne hn)
  fraction := nofun

/-- Its digits behind its sign are read as these parts. -/
theorem numberText_toDigits (isNegative : Bool) (n : ℕ) :
    numberText (NumberText.signChars isNegative ++ Nat.toDigits 10 n) =
      some (⟨isNegative, Nat.toDigits 10 n, none, none⟩, []) := by
  have h := (regular_toDigits isNegative n).numberText_chars
  rwa [NumberText.chars, NumberText.fractionChars, NumberText.exponentChars, List.append_nil,
    List.append_nil] at h

/-- **The shortest writer is faithful.** -/
theorem shortestWriter_faithful : shortestWriter.Faithful := by
  intro n hproper
  change n.IsText n.shortestText
  cases n with
  | natural n =>
      refine ⟨⟨false, Nat.toDigits 10 n, none, none⟩, ?_, rfl, rfl, rfl, value_toDigits n⟩
      have htext : (Number.natural n).shortestText.toList =
          NumberText.signChars false ++ Nat.toDigits 10 n := Nat.toList_repr
      rw [htext, numberText_toDigits]
  | negative n =>
      refine ⟨⟨true, Nat.toDigits 10 n, none, none⟩, ?_, rfl, rfl, rfl, value_toDigits n⟩
      have htext : (Number.negative n).shortestText.toList =
          NumberText.signChars true ++ Nat.toDigits 10 n := by
        rw [Number.shortestText, String.toList_append]
        exact congrArg _ Nat.toList_repr
      rw [htext, numberText_toDigits]
  | double isNegative x =>
      obtain ⟨t, ht⟩ := x.shortest.exists_writtenAs
      refine ⟨{ t with isNegative := isNegative }, ?_, rfl, ht.marked, ?_⟩
      · have hregular : NumberText.Regular { t with isNegative := isNegative } :=
          ⟨ht.regular.whole, ht.regular.nonempty, ht.regular.leading, ht.regular.fraction⟩
        have htext : (Number.double isNegative x).shortestText.toList =
            NumberText.chars { t with isNegative := isNegative } := by
          rw [Number.shortestText, String.toList_append, ht.text]
          cases isNegative <;> simp [NumberText.chars, NumberText.signChars, ht.positive]
        rw [htext]
        exact hregular.numberText_chars
      · have hmagnitude : NumberText.magnitude { t with isNegative := isNegative } =
            x.shortest.value := ht.magnitude
        rw [hmagnitude]
        exact hproper.isNearest_shortest

end Json

end TrustedHtml
