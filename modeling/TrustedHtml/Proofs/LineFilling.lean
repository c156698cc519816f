import Mathlib.Data.List.Chain
import TrustedHtml.Proofs.Bound
import TrustedHtml.Text.Reflow

/-!
# Filling Lines

Reflowing goes through the words of a text once and decides for each of them whether it still
goes onto the current line. What comes out can be told without going through the words in this
way: the words are cut into lines, a line of more than one word is not wider than the width, and
no line could have taken the first word of the next one. There is only one way to cut words like
that, so this says everything about where lines are broken.

Columns are counted with a machine word. Reflowing succeeds exactly if the lines and what they
were tried to be extended to can be counted, and what it writes never depends on what was written
before.

## Main definitions

* `Reflow.Fills`: words are cut into filled lines.
* `Reflow.layOut`: how lines are written.
* `Reflow.Counts`: no column of the lines is out of range.
* `Reflow.fill`: lines that are filled word by word.

## Main results

* `Reflow.fills_iff`: **there is one way to fill lines.**
* `Filling.foldlM_place_eq_ok_iff`: placing words writes the lines that are filled with them.
* `Reflow.append_fills`: **reflowing is filling lines**, behind whatever has been written.
-/

namespace TrustedHtml

/-- A sequence goes on with what its first operation yields. -/
theorem Except.ok_bind {ε α β : Type} (a : α) (k : α → Except ε β) :
    (Except.ok a >>= k) = k a := rfl

namespace Reflow

/-! ### Lines -/

/-- The columns that a line takes up: those of the indentation, which are counted for the first
line as well, and its words with a space between any two. -/
def columns (r : Reflow) (line : List String) : ℕ :=
  r.depth * r.indent.length + (" ".intercalate line).length

/-- **Words are cut into filled lines**: none is empty, a line of more than one word fits the
width, and a line together with the first word of the next one does not. -/
structure Fills (r : Reflow) (words : List String) (lines : List (List String)) : Prop where
  flatten_eq : lines.flatten = words
  ne_nil : ∀ line ∈ lines, line ≠ []
  fits : ∀ line ∈ lines, 1 < line.length → r.columns line ≤ r.width
  full : lines.IsChain fun line next => r.width < r.columns (line ++ next.take 1)

/-- Whether lines are filled can be decided. -/
instance (r : Reflow) (words : List String) (lines : List (List String)) :
    Decidable (r.Fills words lines) :=
  decidable_of_iff (lines.flatten = words ∧ (∀ line ∈ lines, line ≠ []) ∧
      (∀ line ∈ lines, 1 < line.length → r.columns line ≤ r.width) ∧
      lines.IsChain fun line next => r.width < r.columns (line ++ next.take 1))
    ⟨fun ⟨h₁, h₂, h₃, h₄⟩ => ⟨h₁, h₂, h₃, h₄⟩, fun ⟨h₁, h₂, h₃, h₄⟩ => ⟨h₁, h₂, h₃, h₄⟩⟩

/-- How lines are written: between two of them a line break and the indentation. -/
def layOut (r : Reflow) (lines : List (List String)) : String :=
  ("\n" ++ String.join (List.replicate r.depth r.indent)).intercalate
    (lines.map (" ".intercalate ·))

/-- No column is out of range: that of the indentation, those of the lines, and those of the
lines together with the first word of the next one. -/
structure Counts (r : Reflow) (lines : List (List String)) : Prop where
  margin : r.depth * r.indent.length < Counter.bound
  inRange : ∀ line ∈ lines, r.columns line < Counter.bound
  extended : lines.IsChain fun line next => r.columns (line ++ next.take 1) < Counter.bound

/-- Whether lines can be counted can be decided. -/
instance (r : Reflow) (lines : List (List String)) : Decidable (r.Counts lines) :=
  decidable_of_iff (r.depth * r.indent.length < Counter.bound ∧
      (∀ line ∈ lines, r.columns line < Counter.bound) ∧
      lines.IsChain fun line next => r.columns (line ++ next.take 1) < Counter.bound)
    ⟨fun ⟨h₁, h₂, h₃⟩ => ⟨h₁, h₂, h₃⟩, fun ⟨h₁, h₂, h₃⟩ => ⟨h₁, h₂, h₃⟩⟩

variable {r : Reflow} {line next : List String} {word : String} {words : List String}
  {lines more : List (List String)}

/-- The columns of a line with one more word. -/
theorem columns_concat (hline : line ≠ []) (word : String) :
    r.columns (line ++ [word]) = r.columns line + 1 + word.length := by
  rw [columns, columns, String.intercalate_append_of_ne_nil hline (List.cons_ne_nil _ _),
    String.intercalate_singleton, String.length_append, String.length_append]
  have hspace : (" " : String).length = 1 := rfl
  omega

/-- The columns of a line of one word. -/
theorem columns_singleton (word : String) :
    r.columns [word] = r.depth * r.indent.length + word.length := by
  rw [columns, String.intercalate_singleton]

/-- A longer line takes up more columns. -/
theorem columns_le_append (line more : List String) :
    r.columns line ≤ r.columns (line ++ more) := by
  induction more generalizing line with
  | nil => rw [List.append_nil]
  | cons word more ih =>
      have hword : r.columns line ≤ r.columns (line ++ [word]) := by
        cases line with
        | nil => exact Nat.add_le_add_left (Nat.zero_le _) _
        | cons first rest =>
            rw [columns_concat (List.cons_ne_nil _ _)]
            omega
      have hmore := ih (line ++ [word])
      rw [List.append_assoc, List.singleton_append] at hmore
      exact hword.trans hmore

/-- The first of several lines can be counted, and so can the others. -/
theorem counts_cons_cons : r.Counts (line :: next :: more) ↔ r.columns line < Counter.bound ∧
    r.columns (line ++ next.take 1) < Counter.bound ∧ r.Counts (next :: more) := by
  constructor
  · rintro ⟨hmargin, hlines, hextended⟩
    obtain ⟨hline, hlines⟩ := List.forall_mem_cons.mp hlines
    obtain ⟨hfirst, hextended⟩ := List.isChain_cons_cons.mp hextended
    exact ⟨hline, hfirst, hmargin, hlines, hextended⟩
  · rintro ⟨hline, hfirst, hmargin, hlines, hextended⟩
    exact ⟨hmargin, List.forall_mem_cons.mpr ⟨hline, hlines⟩,
      List.isChain_cons_cons.mpr ⟨hfirst, hextended⟩⟩

/-- A single line can be counted if its columns are in range. -/
theorem counts_singleton : r.Counts [line] ↔ r.columns line < Counter.bound := by
  constructor
  · exact fun h => h.inRange line (List.mem_singleton_self line)
  · intro h
    refine ⟨lt_of_le_of_lt (Nat.le_add_right _ _) h, ?_, List.isChain_singleton line⟩
    exact List.forall_mem_singleton.mpr h

/-- A line in front of others is written with a line break behind it. -/
theorem layOut_cons_cons (line next : List String) (more : List (List String)) :
    r.layOut (line :: next :: more) =
      " ".intercalate line ++ r.lineBreak ++ r.layOut (next :: more) := by
  have hcopies : Text.copies r.depth r.indent = String.join (List.replicate r.depth r.indent) := by
    rw [Text.copies]
    split
    · rename_i hempty
      rw [String.isEmpty_iff.mp hempty]
      induction r.depth with
      | zero => rfl
      | succ n ih => rw [List.replicate_succ, String.join_cons, ← ih, String.append_empty]
    · rfl
  rw [layOut, List.map_cons, List.map_cons, String.intercalate_cons_cons, lineBreak, hcopies,
    layOut, List.map_cons]

/-! ### Filling lines word by word -/

/-- The lines that words are filled into if `line` has been begun. -/
def fill (r : Reflow) (line : List String) : List String → List (List String)
  | [] => [line]
  | word :: rest =>
      if r.width < r.columns (line ++ [word]) then line :: r.fill [word] rest
      else r.fill (line ++ [word]) rest

/-- The line that has been begun becomes the first one. -/
theorem exists_fill_eq (r : Reflow) (line words : List String) :
    ∃ added more, r.fill line words = (line ++ added) :: more := by
  induction words generalizing line with
  | nil => exact ⟨[], [], by rw [fill, List.append_nil]⟩
  | cons word rest ih =>
      rw [fill]
      split
      · exact ⟨[], r.fill [word] rest, by rw [List.append_nil]⟩
      · obtain ⟨added, more, hfill⟩ := ih (line ++ [word])
        exact ⟨word :: added, more, by rw [hfill, List.append_assoc]; rfl⟩

/-- Lines that are filled word by word are filled. -/
theorem fills_fill (hline : line ≠ []) (hfits : 1 < line.length → r.columns line ≤ r.width)
    (words : List String) : r.Fills (line ++ words) (r.fill line words) := by
  induction words generalizing line with
  | nil =>
      rw [fill, List.append_nil]
      exact ⟨List.flatten_singleton, List.forall_mem_singleton.mpr hline,
        List.forall_mem_singleton.mpr hfits, List.isChain_singleton line⟩
  | cons word rest ih =>
      rw [fill]
      split
      · rename_i hwide
        obtain ⟨hflatten, hne, hlater, hfull⟩ :=
          ih (List.cons_ne_nil word []) fun h => absurd h (Nat.lt_irrefl 1)
        obtain ⟨added, more, hfill⟩ := r.exists_fill_eq [word] rest
        refine ⟨?_, List.forall_mem_cons.mpr ⟨hline, hne⟩, List.forall_mem_cons.mpr ⟨hfits, hlater⟩,
          ?_⟩
        · rw [List.flatten_cons, hflatten]
          rfl
        · rw [hfill] at hfull ⊢
          exact List.isChain_cons_cons.mpr ⟨hwide, hfull⟩
      · rename_i hnarrow
        have hlonger := @ih (line ++ [word]) (by simp) fun _ => Nat.le_of_not_lt hnarrow
        rwa [List.append_assoc] at hlonger

/-- **There is no other way** to fill lines, the first of which begins with `line`. -/
theorem Fills.eq_fill {added : List String} (hline : line ≠ [])
    (h : r.Fills (line ++ words) ((line ++ added) :: more)) :
    (line ++ added) :: more = r.fill line words := by
  induction words generalizing line added more with
  | nil =>
      obtain ⟨hflatten, hne, -, -⟩ := h
      rw [List.flatten_cons, List.append_assoc, List.append_cancel_left_eq,
        List.append_eq_nil_iff] at hflatten
      obtain ⟨rfl, hmore⟩ := hflatten
      cases more with
      | nil => rw [fill, List.append_nil]
      | cons next later =>
          rw [List.flatten_cons, List.append_eq_nil_iff] at hmore
          exact absurd hmore.1 (hne next (by simp))
  | cons word rest ih =>
      obtain ⟨hflatten, hne, hfits, hfull⟩ := h
      rw [List.flatten_cons, List.append_assoc, List.append_cancel_left_eq] at hflatten
      cases added with
      | nil =>
          -- the line ends here, so the word would not have fitted
          rw [List.append_nil] at hfits hfull ⊢
          cases more with
          | nil => cases hflatten
          | cons next later =>
              obtain ⟨first, added, rfl⟩ := List.exists_cons_of_ne_nil (hne next (by simp))
              obtain ⟨rfl, hrest⟩ := List.cons.inj hflatten
              obtain ⟨hwide, hfull⟩ := List.isChain_cons_cons.mp hfull
              have hwide : r.width < r.columns (line ++ [first]) := hwide
              rw [fill, if_pos hwide]
              have hlater : r.Fills ([first] ++ rest) (([first] ++ added) :: later) :=
                ⟨congrArg (first :: ·) hrest, fun l hl => hne l (List.mem_cons_of_mem _ hl),
                  fun l hl => hfits l (List.mem_cons_of_mem _ hl), hfull⟩
              exact congrArg (line :: ·) (ih (List.cons_ne_nil first []) hlater)
      | cons first added =>
          -- the word is on the line, which has at least two words and fits
          obtain ⟨rfl, hrest⟩ := List.cons.inj hflatten
          have hsplit : line ++ first :: added = (line ++ [first]) ++ added := by
            rw [List.append_assoc, List.singleton_append]
          have hlong : 1 < (line ++ first :: added).length := by
            have := List.length_pos_iff.mpr hline
            rw [List.length_append, List.length_cons]
            omega
          have hcolumns := hfits _ List.mem_cons_self hlong
          rw [hsplit] at hcolumns hne hfits hfull ⊢
          have hnarrow := (columns_le_append (line ++ [first]) added).trans hcolumns
          rw [fill, if_neg (Nat.not_lt.mpr hnarrow)]
          refine ih (by simp) ⟨?_, hne, hfits, hfull⟩
          rw [List.flatten_cons, List.append_assoc, List.append_cancel_left_eq]
          exact hrest

/-- The lines that words are filled into. -/
def filling (r : Reflow) : List String → List (List String)
  | [] => []
  | word :: rest => r.fill [word] rest

/-- **There is one way to fill lines** with words. -/
theorem fills_iff : r.Fills words lines ↔ lines = r.filling words := by
  constructor
  · intro h
    cases lines with
    | nil =>
        obtain rfl : [] = words := h.flatten_eq
        rfl
    | cons line more =>
        obtain ⟨word, added, rfl⟩ := List.exists_cons_of_ne_nil (h.ne_nil line List.mem_cons_self)
        have hwords : word :: (added ++ more.flatten) = words := h.flatten_eq
        rw [← hwords] at h ⊢
        have hne : [word] ≠ [] := List.cons_ne_nil word []
        exact Fills.eq_fill hne h
  · rintro rfl
    cases words with
    | nil => exact ⟨rfl, nofun, nofun, List.isChain_nil⟩
    | cons word rest =>
        exact fills_fill (List.cons_ne_nil word []) (fun h => absurd h (Nat.lt_irrefl 1)) rest

end Reflow

/-! ### Placing words -/

namespace Filling

variable {r : Reflow} {line : List String} {written filled : String}

/-- The state of a text of which `line` is the current line. -/
def onLine (r : Reflow) (written : String) (line : List String) : Filling :=
  ⟨written ++ " ".intercalate line, r.columns line, true⟩

/-- **One word is placed** behind a line that has been begun, if the columns can be counted that
the line would have with it. -/
theorem place_onLine (hline : line ≠ []) (written word : String) :
    (onLine r written line).place r (r.depth * r.indent.length) word =
      if r.columns (line ++ [word]) < Counter.bound then
        .ok (if r.width < r.columns (line ++ [word]) then
          onLine r (written ++ " ".intercalate line ++ r.lineBreak) [word]
        else onLine r written (line ++ [word]))
      else .error .add := by
  have hjoin : " ".intercalate (line ++ [word]) = " ".intercalate line ++ " " ++ word := by
    rw [String.intercalate_append_of_ne_nil hline (List.cons_ne_nil _ _),
      String.intercalate_singleton]
  have hreached := r.columns_concat hline word
  have hword := r.columns_singleton word
  have hmargin : r.depth * r.indent.length ≤ r.columns line := Nat.le_add_right _ _
  rw [place, onLine]
  simp only [↓reduceIte, Counter.add, bind, Except.bind, pure, Except.pure]
  by_cases hcount : r.columns (line ++ [word]) < Counter.bound
  · have hone : r.columns line + 1 < Counter.bound := by omega
    have htotal : r.columns line + 1 + word.length < Counter.bound := by omega
    have hsingle : r.depth * r.indent.length + word.length < Counter.bound := by omega
    rw [if_pos hcount, if_pos hone, if_pos hsingle]
    dsimp only
    rw [if_pos htotal]
    dsimp only
    rw [hreached]
    by_cases hwide : r.columns line + 1 + word.length > r.width
    · rw [if_pos hwide, if_pos hwide, onLine, hword, String.intercalate_singleton]
    · rw [if_neg hwide, if_neg hwide, onLine, hreached, hjoin]
      simp only [String.append_assoc]
  · rw [if_neg hcount]
    by_cases hone : r.columns line + 1 < Counter.bound
    · have htotal : ¬ r.columns line + 1 + word.length < Counter.bound := by omega
      rw [if_pos hone]
      dsimp only
      rw [if_neg htotal]
    · rw [if_neg hone]

/-- The first word is placed if the columns of a line of it can be counted. -/
theorem place_first (written word : String) :
    (⟨written, r.depth * r.indent.length, false⟩ : Filling).place r (r.depth * r.indent.length)
      word = if r.columns [word] < Counter.bound then .ok (onLine r written [word])
        else .error .add := by
  rw [place, onLine, r.columns_singleton, String.intercalate_singleton]
  simp only [Bool.false_eq_true, ↓reduceIte, Counter.add, bind, Except.bind, pure, Except.pure]
  by_cases hcount : r.depth * r.indent.length + word.length < Counter.bound
  · rw [if_pos hcount, if_pos hcount]
  · rw [if_neg hcount, if_neg hcount]

/-- **Placing words writes the lines that are filled with them**, if these can be counted. -/
theorem foldlM_place_eq_ok_iff (hline : line ≠ []) (hcolumns : r.columns line < Counter.bound)
    (words : List String) :
    (∃ final, words.foldlM (place r (r.depth * r.indent.length)) (onLine r written line) =
      .ok final ∧ final.written = filled) ↔
    r.Counts (r.fill line words) ∧ filled = written ++ r.layOut (r.fill line words) := by
  induction words generalizing written line with
  | nil =>
      rw [Reflow.fill, Reflow.counts_singleton, Reflow.layOut, List.map_singleton,
        String.intercalate_singleton]
      constructor
      · rintro ⟨final, hfinal, rfl⟩
        cases hfinal
        exact ⟨hcolumns, rfl⟩
      · rintro ⟨-, rfl⟩
        exact ⟨onLine r written line, rfl, rfl⟩
  | cons word rest ih =>
      rw [List.foldlM_cons, place_onLine hline, Reflow.fill]
      obtain ⟨added, more, hfill⟩ := r.exists_fill_eq [word] rest
      obtain ⟨added', more', hfill'⟩ := r.exists_fill_eq (line ++ [word]) rest
      by_cases hcount : r.columns (line ++ [word]) < Counter.bound
      · rw [if_pos hcount]
        by_cases hwide : r.width < r.columns (line ++ [word])
        · have hword : r.columns [word] < Counter.bound := by
            refine lt_of_le_of_lt ?_ hcount
            rw [r.columns_singleton, r.columns_concat hline]
            have hmargin : r.depth * r.indent.length ≤ r.columns line := Nat.le_add_right _ _
            omega
          have hrest := @ih [word] (written ++ " ".intercalate line ++ r.lineBreak)
            (List.cons_ne_nil word []) hword
          rw [if_pos hwide, if_pos hwide]
          rw [hfill] at hrest ⊢
          rw [Reflow.counts_cons_cons, Reflow.layOut_cons_cons, ← String.append_assoc,
            ← String.append_assoc]
          refine hrest.trans (and_congr_left fun _ => ?_)
          exact ⟨fun hlater => ⟨hcolumns, hcount, hlater⟩, fun hlater => hlater.2.2⟩
        · rw [if_neg hwide, if_neg hwide]
          exact ih (by simp) hcount
      · -- the line with the word is tried, whether the word stays on it or not
        rw [if_neg hcount]
        constructor
        · rintro ⟨final, hfinal, -⟩
          cases hfinal
        · rintro ⟨hcounts, -⟩
          refine absurd ?_ hcount
          by_cases hwide : r.width < r.columns (line ++ [word])
          · rw [if_pos hwide, hfill, Reflow.counts_cons_cons] at hcounts
            exact hcounts.2.1
          · rw [if_neg hwide, hfill'] at hcounts
            exact lt_of_le_of_lt (Reflow.columns_le_append _ _)
              (hcounts.inRange _ List.mem_cons_self)

end Filling

namespace Reflow

variable {r : Reflow}

/-- Words that are placed behind a text are written as the lines they fill, if these can be
counted. -/
theorem append_eq_ok_iff (hwidth : 0 < r.width) (written text filled : String) :
    r.append written text = .ok filled ↔
      r.Counts (r.filling (Text.words text)) ∧
        filled = written ++ r.layOut (r.filling (Text.words text)) := by
  rw [append, if_neg (Nat.pos_iff_ne_zero.mp hwidth), margin, Counter.mul]
  by_cases hmargin : r.depth * r.indent.length < Counter.bound
  · rw [if_pos hmargin, Except.ok_bind]
    cases Text.words text with
    | nil =>
        rw [filling, layOut, List.map_nil, String.intercalate_nil, String.append_empty]
        constructor
        · rintro ⟨⟩
          exact ⟨⟨hmargin, nofun, List.isChain_nil⟩, rfl⟩
        · rintro ⟨-, rfl⟩
          rfl
    | cons word rest =>
        rw [filling, List.foldlM_cons, Filling.place_first]
        by_cases hcount : r.columns [word] < Counter.bound
        · rw [if_pos hcount, Except.ok_bind, Except.bind_eq_ok,
            ← Filling.foldlM_place_eq_ok_iff (List.cons_ne_nil word []) hcount]
          refine exists_congr fun final => and_congr_right fun _ => ?_
          exact ⟨Except.ok.inj, congrArg Except.ok⟩
        · obtain ⟨added, more, hfill⟩ := r.exists_fill_eq [word] rest
          rw [if_neg hcount, hfill]
          constructor
          · rintro ⟨⟩
          · rintro ⟨hcounts, -⟩
            refine absurd ?_ hcount
            exact (columns_le_append _ added).trans_lt (hcounts.inRange _ List.mem_cons_self)
  · rw [if_neg hmargin]
    constructor
    · rintro ⟨⟩
    · rintro ⟨hcounts, -⟩
      exact absurd hcounts.margin hmargin

/-- **Reflowing is filling lines.** There is one way to cut the words of a text into filled lines,
and what is appended to anything that was written before is these lines, if no column is out of
range; nothing if there are no words. Width 0 leaves the text as it is. -/
theorem append_fills (r : Reflow) (text : String) :
    (r.width = 0 → ∀ written, r.append written text = .ok (written ++ text)) ∧
    (0 < r.width → (∃! lines, r.Fills (Text.words text) lines) ∧
      ∀ lines, r.Fills (Text.words text) lines →
        (Text.words text = [] → r.layOut lines = "") ∧ ∀ written filled,
          r.append written text = .ok filled ↔
            r.Counts lines ∧ filled = written ++ r.layOut lines) := by
  refine ⟨fun hwidth written => ?_, fun hwidth => ⟨?_, fun lines hfills => ⟨fun hnone => ?_, ?_⟩⟩⟩
  · rw [append, if_pos hwidth]
    rfl
  · exact ⟨r.filling (Text.words text), fills_iff.mpr rfl, fun lines h => fills_iff.mp h⟩
  · rw [fills_iff.mp hfills, hnone]
    rfl
  · rw [fills_iff.mp hfills]
    exact fun written filled => append_eq_ok_iff hwidth written text filled

/-- Three words on two lines, the second of which is just as wide as it can be. Columns are
counted in characters, and with the indentation. -/
theorem append_fills_umlauts :
    let r : Reflow := ⟨7, 1, "  "⟩
    let lines := [["ääää"], ["öö", "cc"]]
    0 < r.width ∧ r.Fills (Text.words " ääää\töö\n cc ") lines ∧
      r.append "a: " " ääää\töö\n cc " = .ok "a: ääää\n  öö cc" := by
  intro r lines
  have hfills : r.Fills (Text.words " ääää\töö\n cc ") lines := by decide +kernel
  have hcounts : r.Counts lines := by decide +kernel
  have hlaidOut : "a: ääää\n  öö cc" = "a: " ++ r.layOut lines := by decide +kernel
  refine ⟨by decide, hfills, ?_⟩
  exact ((((append_fills r _).2 (by decide)).2 lines hfills).2 _ _).mpr ⟨hcounts, hlaidOut⟩

end Reflow

end TrustedHtml
