import Mathlib.Data.List.Nodup
import TrustedHtml.Text.Quoted
import TrustedHtml.Schema.Dump

/-!
# Reading Quoted Literals

A literal says where it ends. How a character is written never begins with a quote, and of two
characters neither is written as the other one with something behind it. So a literal at the
beginning of a text determines the string that is quoted and what is behind the literal, even if
the string imitates a literal. No line break is written as it is, so a literal stays on its line,
and lines can be told apart when they are joined.

## Main results

* `Text.hexDigits_inj`: digits determine the number.
* `Text.quotedChar_append_inj`: what is written for a character determines it, and what follows.
* `Text.quoted_append_inj`: **a literal determines the string that is quoted**, and what follows.
* `Text.unlines_inj`: lines can be told apart.
-/

namespace TrustedHtml.Text

/-- What stands in front of a character that does not occur in it is determined, and what is
behind. -/
theorem append_cons_inj {c : Char} {xs ys rest later : List Char} (hxs : c ∉ xs) (hys : c ∉ ys)
    (h : xs ++ c :: rest = ys ++ c :: later) : xs = ys ∧ rest = later := by
  induction xs generalizing ys with
  | nil =>
      cases ys with
      | nil => exact ⟨rfl, (List.cons.inj h).2⟩
      | cons y ys => exact absurd ((List.cons.inj h).1 ▸ List.mem_cons_self) hys
  | cons x xs ih =>
      cases ys with
      | nil => exact absurd ((List.cons.inj h).1 ▸ List.mem_cons_self) hxs
      | cons y ys =>
          obtain ⟨rfl, hmore⟩ := List.cons.inj h
          obtain ⟨rfl, hrest⟩ := ih (List.not_mem_of_not_mem_cons hxs)
            (List.not_mem_of_not_mem_cons hys) hmore
          exact ⟨rfl, hrest⟩

/-! ### Digits -/

/-- A digit, for each number below 16. -/
theorem exists_of_mem_hexDigits {n : ℕ} {c : Char} (h : c ∈ hexDigits n) :
    ∃ d < 16, c = Nat.digitChar d := by
  induction n using Nat.strongRecOn with
  | ind n ih =>
      rw [hexDigits, Nat.toDigits_eq_if (by decide)] at h
      split at h
      · rename_i hlt
        exact ⟨n, hlt, List.mem_singleton.mp h⟩
      · obtain h | h := List.mem_append.mp h
        · exact ih (n / 16) (by omega) h
        · exact ⟨n % 16, Nat.mod_lt _ (by decide), List.mem_singleton.mp h⟩

/-- Different digits are written differently. -/
theorem digitChar_inj {d e : ℕ} (hd : d < 16) (he : e < 16)
    (h : Nat.digitChar d = Nat.digitChar e) : d = e := by
  have hall : ∀ d e : Fin 16, Nat.digitChar d = Nat.digitChar e → d = e := by decide
  exact congrArg Fin.val (hall ⟨d, hd⟩ ⟨e, he⟩ h)

/-- **Digits determine the number.** -/
theorem hexDigits_inj {m n : ℕ} (h : hexDigits m = hexDigits n) : m = n := by
  induction m using Nat.strongRecOn generalizing n with
  | ind m ih =>
      have hne : ∀ k, Nat.toDigits 16 k ≠ [] := fun k => Nat.toDigits_ne_nil
      rw [hexDigits, hexDigits, Nat.toDigits_eq_if (by decide),
        Nat.toDigits_eq_if (n := n) (by decide)] at h
      split at h <;> rename_i hm <;> split at h <;> rename_i hn
      · exact digitChar_inj hm hn (List.singleton_inj.mp h)
      · simpa [hne] using congrArg List.length h
      · simpa [hne] using congrArg List.length h
      · obtain ⟨hinit, hlast⟩ := List.append_inj' h rfl
        have hdiv := ih (m / 16) (by omega) hinit
        have hmod := digitChar_inj (Nat.mod_lt m (by decide)) (Nat.mod_lt n (by decide))
          (List.singleton_inj.mp hlast)
        omega

/-- What no digit is written with does not occur. -/
theorem notMem_hexDigits {c : Char} (hc : ∀ d < 16, c ≠ Nat.digitChar d) (n : ℕ) :
    c ∉ hexDigits n := by
  intro h
  obtain ⟨d, hd, heq⟩ := exists_of_mem_hexDigits h
  exact hc d hd heq

/-! ### Characters -/

/-- The characters that have a short escape, and the letters that they are written with. -/
def shortEscapes : List (Char × Char) :=
  [('"', '"'), ('\\', '\\'), ('\t', 't'), ('\r', 'r'), ('\n', 'n'), ('\x00', '0')]

/-- How a character is written: with a short escape, by its code point, or as it is. -/
theorem quotedChar_cases (c : Char) :
    (∃ letter, (c, letter) ∈ shortEscapes ∧ quotedChar c = ['\\', letter]) ∨
      quotedChar c = ['\\', 'u', '\x7b'] ++ hexDigits c.toNat ++ ['\x7d'] ∨
      quotedChar c = [c] ∧ c ≠ '\\' ∧ c ≠ '"' ∧ c ≠ '\n' := by
  rw [quotedChar.eq_def]
  split
  case h_7 hquote hbackslash _ _ hnewline _ =>
    split
    · exact .inr (.inl rfl)
    · exact .inr (.inr ⟨rfl, hbackslash, hquote, hnewline⟩)
  all_goals exact .inl ⟨_, by decide, rfl⟩

/-- A letter stands for one character only, and not for a code point. -/
theorem shortEscapes_inj {c d letter : Char} (hc : (c, letter) ∈ shortEscapes)
    (hd : (d, letter) ∈ shortEscapes) : c = d := by
  have hnodup : (shortEscapes.map (·.2)).Nodup := by decide
  exact congrArg Prod.fst (List.inj_on_of_nodup_map hnodup hc hd rfl)

/-- **What is written for a character determines it**, and what follows. -/
theorem quotedChar_append_inj {c d : Char} {rest later : List Char}
    (h : quotedChar c ++ rest = quotedChar d ++ later) : c = d ∧ rest = later := by
  have hu : ∀ c, (c, 'u') ∉ shortEscapes := by
    intro c hc
    simp [shortEscapes] at hc
  obtain ⟨x, hx, hc⟩ | hc | ⟨hc, hc', -⟩ := quotedChar_cases c <;>
    obtain ⟨y, hy, hd⟩ | hd | ⟨hd, hd', -⟩ := quotedChar_cases d <;>
    rw [hc, hd] at h <;> simp only [List.cons_append, List.nil_append, List.append_assoc,
      List.cons.injEq] at h
  · obtain ⟨-, rfl, hrest⟩ := h
    exact ⟨shortEscapes_inj hx hy, hrest⟩
  · obtain ⟨-, rfl, -⟩ := h
    exact absurd hx (hu c)
  · exact absurd h.1.symm hd'
  · obtain ⟨-, rfl, -⟩ := h
    exact absurd hy (hu d)
  · obtain ⟨hdigits, hrest⟩ := append_cons_inj (notMem_hexDigits (by decide) _)
      (notMem_hexDigits (by decide) _) h.2.2.2
    exact ⟨Char.toNat_inj.mp (hexDigits_inj hdigits), hrest⟩
  · exact absurd h.1.symm hd'
  · exact absurd h.1 hc'
  · exact absurd h.1 hc'
  · exact h

/-- What is written for a character does not begin with a quote. -/
theorem quotedChar_head {c : Char} {rest later : List Char} :
    quotedChar c ++ rest ≠ '"' :: later := by
  intro h
  obtain ⟨letter, -, hc⟩ | hc | ⟨hc, -, hquote, -⟩ := quotedChar_cases c <;>
    rw [hc] at h <;> simp only [List.cons_append, List.cons.injEq] at h
  · exact absurd h.1 (by decide)
  · exact absurd h.1 (by decide)
  · exact hquote h.1

/-- No line break is written as it is. -/
theorem newline_notMem_quotedChar (c : Char) : '\n' ∉ quotedChar c := by
  obtain ⟨letter, hmem, hc⟩ | hc | ⟨hc, -, -, hnewline⟩ := quotedChar_cases c <;> rw [hc]
  · rintro (_ | ⟨_, hmem'⟩)
    obtain rfl := List.mem_singleton.mp hmem'
    simp [shortEscapes] at hmem
  · simp [notMem_hexDigits (by decide : ∀ d < 16, '\n' ≠ Nat.digitChar d)]
  · exact fun h => hnewline (List.mem_singleton.mp h).symm

/-! ### Literals -/

/-- What is written up to the closing quote determines the characters, and what follows. -/
theorem flatMap_quotedChar_append_inj {cs ds rest later : List Char}
    (h : cs.flatMap quotedChar ++ '"' :: rest = ds.flatMap quotedChar ++ '"' :: later) :
    cs = ds ∧ rest = later := by
  induction cs generalizing ds with
  | nil =>
      cases ds with
      | nil => exact ⟨rfl, (List.cons.inj h).2⟩
      | cons d ds =>
          rw [List.flatMap_cons, List.append_assoc] at h
          exact absurd h.symm quotedChar_head
  | cons c cs ih =>
      cases ds with
      | nil =>
          rw [List.flatMap_cons, List.append_assoc] at h
          exact absurd h quotedChar_head
      | cons d ds =>
          rw [List.flatMap_cons, List.flatMap_cons, List.append_assoc, List.append_assoc] at h
          obtain ⟨rfl, hmore⟩ := quotedChar_append_inj h
          obtain ⟨rfl, hrest⟩ := ih hmore
          exact ⟨rfl, hrest⟩

/-- **A literal determines the string that is quoted**, and what follows. -/
theorem quoted_append_inj {s t rest later : String} (h : quoted s ++ rest = quoted t ++ later) :
    s = t ∧ rest = later := by
  rw [← String.toList_inj, String.toList_append, String.toList_append, quoted, quoted,
    String.toList_ofList, String.toList_ofList, List.cons_append, List.cons_append,
    List.append_assoc, List.append_assoc] at h
  obtain ⟨hs, hrest⟩ := flatMap_quotedChar_append_inj (List.cons.inj h).2
  exact ⟨String.toList_inj.mp hs, String.toList_inj.mp hrest⟩

/-- Different strings are quoted differently. -/
theorem quoted_inj {s t : String} (h : quoted s = quoted t) : s = t :=
  (quoted_append_inj (congrArg (· ++ "") h)).1

/-! ### Lines -/

/-- **A text on one line.** -/
def OnLine (text : String) : Prop :=
  '\n' ∉ text.toList

instance : DecidablePred OnLine := fun _ =>
  inferInstanceAs (Decidable (¬_))

/-- Texts on one line, one behind the other. -/
theorem OnLine.append {s t : String} (hs : OnLine s) (ht : OnLine t) : OnLine (s ++ t) := by
  rw [OnLine, String.toList_append, List.mem_append]
  exact not_or.mpr ⟨hs, ht⟩

/-- A literal stays on its line. -/
theorem onLine_quoted (s : String) : OnLine (quoted s) := by
  rw [OnLine, quoted, String.toList_ofList, List.mem_append, List.mem_cons, List.mem_flatMap]
  rintro ((heq | ⟨c, -, hc⟩) | hmem)
  · exact absurd heq (by decide)
  · exact newline_notMem_quotedChar c hc
  · exact absurd (List.mem_singleton.mp hmem) (by decide)

/-- A number stays on its line. -/
theorem onLine_repr (n : ℕ) : OnLine n.repr := by
  intro h
  rw [Nat.repr_eq_ofList_toDigits, String.toList_ofList] at h
  exact absurd (Nat.isDigit_of_mem_toDigits (by decide) (by decide) h) (by decide)

/-- Indentation stays on its line. -/
theorem onLine_tabs (depth : ℕ) : OnLine (tabs depth) := by
  rw [OnLine, tabs, String.pushn_eq_repeat_push]
  induction depth with
  | zero => exact List.not_mem_nil
  | succ depth ih =>
      rw [Nat.repeat, String.toList_push, List.mem_append]
      exact not_or.mpr ⟨ih, by decide⟩

/-- **Lines can be told apart** when they are joined. -/
theorem unlines_inj {lines others : List String} (hlines : ∀ line ∈ lines, OnLine line)
    (hothers : ∀ line ∈ others, OnLine line) (h : unlines lines = unlines others) :
    lines = others := by
  have hcons : ∀ (line : String) (rest : List String),
      (unlines (line :: rest)).toList = line.toList ++ '\n' :: (unlines rest).toList := by
    intro line rest
    rw [unlines, List.map_cons, String.join_cons, String.toList_append, String.toList_append,
      List.append_assoc]
    rfl
  induction lines generalizing others with
  | nil =>
      cases others with
      | nil => rfl
      | cons other rest =>
          have hnil := congrArg String.toList h
          rw [hcons] at hnil
          exact absurd hnil.symm (by simp [unlines])
  | cons line rest ih =>
      cases others with
      | nil =>
          have hnil := congrArg String.toList h
          rw [hcons] at hnil
          exact absurd hnil (by simp [unlines])
      | cons other later =>
          obtain ⟨hline, hrest⟩ := List.forall_mem_cons.mp hlines
          obtain ⟨hother, hlater⟩ := List.forall_mem_cons.mp hothers
          rw [← String.toList_inj, hcons, hcons] at h
          obtain ⟨heq, hmore⟩ := append_cons_inj hline hother h
          rw [String.toList_inj.mp heq, ih hrest hlater (String.toList_inj.mp hmore)]

end TrustedHtml.Text
