import Mathlib.Data.List.TakeWhile
import TrustedHtml.Json.Reader
import TrustedHtml.Proofs.NearestDoubles

/-!
# Texts of Numbers

The text of a number has parts: a sign, digits, decimal places and an exponent. They are read off
the text by the rules of JSON, and they say what the number is. A text with decimal places or an
exponent stands for a double, which is the one that the decimal rounds to; any other text stands for
an integer.

A writer of numbers is expected to give each of them such a text, and nothing more. There may be
several for a double, of any number of digits. Numbers are integers of 64 bits and doubles in their
one form; there are no others in a document that is read.

## Main definitions

* `Json.Reader.NumberText.chars`: how parts of a number are written.
* `Json.Reader.NumberText.magnitude`: the decimal that they stand for.
* `Json.Number.IsText`: a text is one of a number.
* `Json.Number.Proper`: the numbers that documents have.
* `Json.NumberWriter.Faithful`: a writer gives each of them a text of it.

## Main results

* `Json.Reader.NumberText.Regular.numberText_chars`: **the parts of a number are read back.**
* `Json.Reader.NumberText.number?_proper`: documents have proper numbers only.
-/

namespace TrustedHtml

namespace Json.Reader

/-! ### Reading digits -/

/-- The digits end here: there is nothing more, or something else. -/
def Ends (rest : List Char) : Prop :=
  ∀ c ∈ rest.head?, c.isDigit = false

/-- There is nothing more. -/
@[simp]
theorem ends_nil : Ends [] := by
  simp [Ends]

/-- There is something else. -/
@[simp]
theorem ends_cons {c : Char} {cs : List Char} : Ends (c :: cs) ↔ c.isDigit = false := by
  simp [Ends]

/-- Digits are read up to their end. -/
theorem digits_append {found rest : List Char} (hfound : ∀ c ∈ found, c.isDigit = true)
    (hrest : Ends rest) : digits (found ++ rest) = (found, rest) := by
  rw [digits, List.takeWhile_append_of_pos hfound, List.dropWhile_append_of_pos hfound]
  cases rest with
  | nil => simp
  | cons c rest =>
      have hc := hrest c rfl
      simp [hc]

/-- The digits of a number are digits. -/
theorem isDigit_of_mem_toDigits {n : ℕ} {c : Char} (hc : c ∈ Nat.toDigits 10 n) :
    c.isDigit = true :=
  Nat.isDigit_of_mem_toDigits (by norm_num) (by norm_num) hc

/-- The digits of a number are read. -/
theorem digits_toDigits (n : ℕ) : digits (Nat.toDigits 10 n) = (Nat.toDigits 10 n, []) := by
  have h := digits_append (fun c => isDigit_of_mem_toDigits (n := n) (c := c)) ends_nil
  rwa [List.append_nil] at h

/-- The value of digits, in the terms of the library. -/
theorem value_eq_ofDigitChars (ds : List Char) : value ds = Nat.ofDigitChars 10 ds 0 := by
  rw [value, Nat.ofDigitChars_eq_foldl]
  simp only [Nat.mul_comm]
  rfl

/-- The value of the digits of a number. -/
@[simp]
theorem value_toDigits (n : ℕ) : value (Nat.toDigits 10 n) = n := by
  rw [value_eq_ofDigitChars, Nat.ofDigitChars_ten_toDigits]

/-! ### Writing the parts of a number -/

namespace NumberText

/-- How a sign is written. -/
def signChars (isNegative : Bool) : List Char :=
  if isNegative then ['-'] else []

/-- How decimal places are written, if there are any. -/
def fractionChars : Option (List Char) → List Char
  | some places => '.' :: places
  | none => []

/-- How an exponent is written, if there is one. -/
def exponentChars : Option ℤ → List Char
  | some e => 'e' :: (if e < 0 then '-' else '+') :: Nat.toDigits 10 e.natAbs
  | none => []

/-- How a number is written that has these parts. -/
def chars (t : NumberText) : List Char :=
  signChars t.isNegative ++ (t.whole ++ (fractionChars t.fraction ++ exponentChars t.exponent))

/-- **The parts of a number as it may be written**: there is a digit before the point, and one
behind it if there is a point, and none of several is a leading zero. -/
structure Regular (t : NumberText) : Prop where
  whole : ∀ c ∈ t.whole, c.isDigit = true
  nonempty : t.whole ≠ []
  leading : t.whole.length = 1 ∨ t.whole.head? ≠ some '0'
  fraction : ∀ places ∈ t.fraction, places ≠ [] ∧ ∀ c ∈ places, c.isDigit = true

/-- An exponent is read. -/
theorem exponent_exponentChars (e : Option ℤ) :
    Reader.exponent (exponentChars e) = some (e, []) := by
  cases e with
  | none => rfl
  | some e =>
      have hread := digits_toDigits e.natAbs
      have hvalue := value_toDigits e.natAbs
      obtain ⟨c, cs, hcons⟩ := List.exists_cons_of_ne_nil
        (Nat.toDigits_ne_nil (n := e.natAbs) (b := 10))
      rw [exponentChars]
      rw [hcons] at hread hvalue ⊢
      rcases lt_or_ge e 0 with he | he
      · simp [Reader.exponent, he, hread, hvalue, abs_of_neg he]
      · simp [Reader.exponent, he.not_gt, hread, hvalue, he]

/-- Digits end in front of an exponent. -/
theorem ends_exponentChars (e : Option ℤ) : Ends (exponentChars e) := by
  cases e with
  | none => exact ends_nil
  | some e => exact ends_cons.mpr rfl

/-- Decimal places are read. -/
theorem fraction_fractionChars {frac : Option (List Char)} {e : Option ℤ}
    (h : ∀ places ∈ frac, places ≠ [] ∧ ∀ c ∈ places, c.isDigit = true) :
    Reader.fraction (fractionChars frac ++ exponentChars e) = some (frac, exponentChars e) := by
  cases frac with
  | none => cases e <;> rfl
  | some places =>
      obtain ⟨hne, hdigits⟩ := h places rfl
      obtain ⟨c, cs, rfl⟩ := List.exists_cons_of_ne_nil hne
      have hread := digits_append hdigits (ends_exponentChars e)
      rw [List.cons_append] at hread
      simp [fractionChars, Reader.fraction, hread]

/-- Digits end in front of decimal places. -/
theorem ends_fractionChars (frac : Option (List Char)) (e : Option ℤ) :
    Ends (fractionChars frac ++ exponentChars e) := by
  cases frac with
  | none => exact ends_exponentChars e
  | some places => exact ends_cons.mpr rfl

/-- A sign is read. -/
theorem sign_signChars (isNegative : Bool) {first : Char} (hfirst : first.isDigit = true)
    (cs : List Char) :
    sign (signChars isNegative ++ first :: cs) = (isNegative, first :: cs) := by
  cases isNegative with
  | true => rfl
  | false =>
      have hne : first ≠ '-' := by
        rintro rfl
        cases hfirst
      simp [signChars, sign, hne]

/-- **The parts of a number are read.** -/
theorem Regular.numberText_chars {t : NumberText} (h : t.Regular) :
    numberText t.chars = some (t, []) := by
  obtain ⟨first, rest, hwhole⟩ := List.exists_cons_of_ne_nil h.nonempty
  have hread := digits_append h.whole (ends_fractionChars t.fraction t.exponent)
  have hzero : t.whole.length ≠ 1 → t.whole.head? ≠ some '0' := h.leading.resolve_left
  have hfirst : first.isDigit = true := h.whole first (by simp [hwhole])
  have hsign : sign t.chars = (t.isNegative,
      t.whole ++ (fractionChars t.fraction ++ exponentChars t.exponent)) := by
    rw [chars, hwhole, List.cons_append, sign_signChars _ hfirst]
  rw [numberText, hsign]
  simpa [hread, fraction_fractionChars h.fraction, exponent_exponentChars] using
    And.intro h.nonempty hzero

/-- The number that is written, without its sign. -/
def magnitude (t : NumberText) : ℚ :=
  value (t.whole ++ t.fraction.getD []) * 10 ^ (t.exponent.getD 0 - (t.fraction.getD []).length)

end NumberText

/-- Zeros behind digits. -/
theorem value_append_replicate (ds : List Char) (k : ℕ) :
    value (ds ++ List.replicate k '0') = value ds * 10 ^ k := by
  simp only [value_eq_ofDigitChars, Nat.ofDigitChars_append, Nat.ofDigitChars_replicate_zero]
  ring

/-- Zeros in front of digits. -/
theorem value_replicate_append (k : ℕ) (ds : List Char) :
    value (List.replicate k '0' ++ ds) = value ds := by
  simp only [value_eq_ofDigitChars, Nat.ofDigitChars_append, Nat.ofDigitChars_replicate_zero,
    Nat.mul_zero]

/-- The first digit of a number is not zero. -/
theorem head?_toDigits_ne {n : ℕ} (hn : n ≠ 0) : (Nat.toDigits 10 n).head? ≠ some '0' := by
  induction n using Nat.strong_induction_on with
  | _ n ih =>
    rcases lt_or_ge n 10 with hlt | hge
    · simp [Nat.toDigits_of_lt_base hlt, hn]
    · rw [Nat.toDigits_of_base_le (by norm_num) hge,
        List.head?_append_of_ne_nil _ Nat.toDigits_ne_nil]
      exact ih (n / 10) (by omega) (by omega)

end Json.Reader

namespace Json

open Reader

/-! ### Texts of numbers -/

/-- **The parts of a text say what a number is.** -/
def Number.IsSaidBy (t : NumberText) : Number → Prop
  | natural n =>
      t.isNegative = false ∧ t.fraction = none ∧ t.exponent = none ∧ Reader.value t.whole = n
  | negative n =>
      t.isNegative = true ∧ t.fraction = none ∧ t.exponent = none ∧ Reader.value t.whole = n
  | double isNegative x =>
      t.isNegative = isNegative ∧ (t.fraction ≠ none ∨ t.exponent ≠ none) ∧
        x.IsNearest t.magnitude

/-- **A text is one of a number**: it has the form of a number, and its parts say which one. -/
def Number.IsText (n : Number) (text : String) : Prop :=
  ∃ t, numberText text.toList = some (t, []) ∧ n.IsSaidBy t

/-- **The numbers that documents have**: integers of 64 bits, and doubles in their one form. -/
def Number.Proper : Number → Prop
  | natural n => n < 2 ^ 64
  | negative n => 0 < n ∧ n ≤ 2 ^ 63
  | double _ x => x.Canonical

/-- **A faithful writer** gives every number a text of it. -/
def NumberWriter.Faithful (writer : NumberWriter) : Prop :=
  ∀ n : Number, n.Proper → n.IsText (writer.text n)

/-! ### Numbers that are read -/

namespace Reader

/-- What is nearest to a number that is at least one is not zero. -/
theorem significand_ne_zero {x : Binary64} {q : ℚ} (hx : x.IsNearest q) (hq : 1 ≤ q) :
    x.significand ≠ 0 := by
  intro hzero
  have hvalue : x.value = 0 := by simp [Binary64.value, hzero]
  have hone : (⟨2 ^ 52, -52⟩ : Binary64).value = 1 := by norm_num [Binary64.value]
  have hcanonical : (⟨2 ^ 52, -52⟩ : Binary64).Canonical :=
    ⟨by norm_num, by norm_num, .inl (le_refl _)⟩
  have hdist := hx _ hcanonical (by rw [hone, hvalue]; exact one_ne_zero)
  rw [hvalue, hone, abs_of_nonneg (by linarith), abs_of_nonneg (by linarith)] at hdist
  rcases hdist with hlt | ⟨heq, -⟩ <;> linarith

/-- A power of ten that is a double. -/
theorem powerOfTen_spec {power : ℕ} {x : Binary64} (h : powerOfTen power = some x) :
    x.Canonical ∧ x.significand ≠ 0 := by
  rw [powerOfTen, Binary64.ofNat] at h
  obtain ⟨hx, hnearest⟩ := Binary64.round_spec one_pos h
  have hpower : (1 : ℚ) ≤ 10 ^ power := one_le_pow₀ (by norm_num)
  exact ⟨hx, significand_ne_zero hnearest (by simpa using hpower)⟩

/-- What a double is divided into. -/
theorem divideByPower_canonical {steps power : ℕ} {x y : Binary64} (hx : x.Canonical)
    (h : divideByPower steps x power = some y) : y.Canonical := by
  induction steps generalizing x power with
  | zero =>
      cases h
      exact hx
  | succ steps ih =>
      rw [divideByPower] at h
      split_ifs at h with hpower hzero
      · obtain ⟨ten, hten, hdiv⟩ := Option.bind_eq_some_iff.mp h
        exact (Binary64.div_spec (powerOfTen_spec hten).2 hdiv).1
      · cases h
        exact hx
      · obtain ⟨ten, hten, hrest⟩ := Option.bind_eq_some_iff.mp h
        obtain ⟨z, hdiv, hrest⟩ := Option.bind_eq_some_iff.mp hrest
        exact ih (Binary64.div_spec (powerOfTen_spec hten).2 hdiv).1 hrest

/-- What digits and an exponent are read as. -/
theorem scaled_canonical {significand : ℕ} {e : ℤ} {x : Binary64}
    (h : scaled significand e = some x) : x.Canonical := by
  rw [scaled] at h
  obtain ⟨y, hy, h⟩ := Option.bind_eq_some_iff.mp h
  have hcanonical := (Binary64.round_spec one_pos hy).1
  split_ifs at h
  · exact divideByPower_canonical hcanonical h
  · obtain ⟨ten, -, hmul⟩ := Option.bind_eq_some_iff.mp h
    exact (Binary64.mul_spec hmul).1
  · cases h
    exact hcanonical

/-- The digits that are taken stay below the bound. -/
theorem takeDigits_lt {significand : ℕ} (h : significand < significandBound) (taken : ℕ)
    (ds : List Char) : (takeDigits significand taken ds).1 < significandBound := by
  induction ds generalizing significand taken with
  | nil => exact h
  | cons c rest ih =>
      unfold takeDigits
      extract_lets next
      split_ifs with hnext
      · exact ih hnext _
      · exact h

/-- **Documents have proper numbers only.** -/
theorem NumberText.number?_proper {t : NumberText} {n : Number} (h : t.number? = some n) :
    n.Proper := by
  have hlt : (takeDigits 0 0 t.whole).1 < significandBound := takeDigits_lt (by decide) 0 t.whole
  rw [number?] at h
  simp only at h
  split_ifs at h with hinteger hnegative
  · cases h
    simp only [hnegative, Bool.and_eq_true, Bool.or_eq_true, decide_eq_true_eq] at hinteger
    simpa [Number.Proper] using hinteger.2
  · cases h
    exact hlt
  · obtain ⟨x, hx, rfl⟩ := Option.map_eq_some_iff.mp h
    exact scaled_canonical hx

end Reader

end Json

end TrustedHtml
