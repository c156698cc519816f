import Mathlib.Order.Lattice
import TrustedHtml.Trust.SafeString

/-!
# The Order of Trust Levels

The levels are ordered by what they require: a level is below another one if whatever meets
the second meets the first, that is, if the join of the two is the second. In this order the
levels are a semilattice, in which raising a requirement is taking the join.

A string is checked once for a place whose requirement has been raised to fit every use of
it. This module shows that nothing is lost that way: a check that succeeds succeeds at every
lower level, and gives the same text there, unless the lower level requires nothing.

## Main results

* `TrustLevel.le_iff`: the order, spelled out.
* `SafeString.check_of_le`: **one check serves all lower levels**.
-/

namespace TrustedHtml

namespace TrustLevel

instance : Max TrustLevel := ⟨join⟩

/-- The levels with their join as the least upper bound. -/
instance : SemilatticeSup TrustLevel :=
  SemilatticeSup.mk' join_comm join_assoc join_self

instance : DecidableLE TrustLevel := fun a b => inferInstanceAs (Decidable (a.join b = b))

/-- Two levels are related only if they are equal, or one of them is an end of the order. -/
theorem le_iff {a b : TrustLevel} : a ≤ b ↔ a = b ∨ a = untrusted ∨ b = fullyTrusted := by
  cases a <;> cases b <;> decide

/-- Requiring nothing is below everything. -/
theorem untrusted_le (a : TrustLevel) : untrusted ≤ a :=
  le_iff.mpr (Or.inr (Or.inl rfl))

/-- What is below requiring nothing requires nothing. -/
theorem eq_untrusted_of_le {a : TrustLevel} (h : a ≤ untrusted) : a = untrusted :=
  le_antisymm h (untrusted_le a)

end TrustLevel

namespace SafeString

variable [UrlReader] {s : SafeString} {text : String} {lower upper : TrustLevel}

/-- Every string is as it is where nothing is required. -/
theorem check_untrusted (s : SafeString) : s.check .untrusted = .ok s.text := by
  obtain ⟨level, text⟩ := s
  cases level <;> rfl

/-- A literal of the program is as it is everywhere. -/
theorem check_of_level_fullyTrusted (h : s.level = .fullyTrusted) (required : TrustLevel) :
    s.check required = .ok s.text := by
  obtain ⟨level, text⟩ := s
  subst h
  rfl

/-- Only literals of the program meet full trust. -/
theorem level_of_check_fullyTrusted (h : s.check .fullyTrusted = .ok text) :
    s.level = .fullyTrusted := by
  obtain ⟨level, content⟩ := s
  cases level with
  | fullyTrusted => rfl
  | untrusted | htmlSafe | textSafe | urlSafe | attributeSafe => exact absurd h (by nofun)

/-- **One check serves all lower levels.** A string that meets a level meets every lower one,
and the text for the lower level is the same, unless that level requires nothing. -/
theorem check_of_le (hle : lower ≤ upper) (h : s.check upper = .ok text) :
    ∃ checked, s.check lower = .ok checked ∧ (lower ≠ .untrusted → text = checked) := by
  rcases TrustLevel.le_iff.mp hle with rfl | rfl | rfl
  · exact ⟨text, h, fun _ => rfl⟩
  · exact ⟨s.text, check_untrusted s, fun hne => absurd rfl hne⟩
  · have hlevel := level_of_check_fullyTrusted h
    rw [check_of_level_fullyTrusted hlevel] at h
    exact ⟨s.text, check_of_level_fullyTrusted hlevel lower, fun _ => (Except.ok.inj h).symm⟩

end SafeString

end TrustedHtml
