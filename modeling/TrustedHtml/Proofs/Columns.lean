import Mathlib.Algebra.GroupWithZero.Nat
import Mathlib.Data.List.TakeWhile
import TrustedHtml.Proofs.LineFilling
import TrustedHtml.Proofs.TextFidelity

/-!
# Counting Columns

`Reflow.append` gives the text with its lines, or the operation that left the range of a counter.
Reflowing can also be carried out as it writes: a break and a space are appended before the column
is counted on, each sum is computed where it is needed, and what has been appended stays if a
counter overflows. `Reflow.write` does that, and both are the same (`Reflow.append_eq_forget`).

A text with at least as many characters as its words have with single spaces between them cannot
be laid out on a line that is longer than the indentation and the text together. That bounds all
sums that are computed, the one that a line is only tried to be extended to included. So
reflowing overflows on no text that fits the counter together with the indentation.

## Main definitions

* `Appending`: operations that append to a text and count.
* `Line.place`, `Reflow.writeWords`, `Reflow.write`: reflowing is carried out as it writes.
* `Reflow.LastLine`: what has been appended since the last line break and its indentation.
* `Reflow.Tracks`: the column is counted from there on.

## Main results

* `Text.length_intercalate_words`: words with spaces between them are no longer than their text.
* `Reflow.append_eq_forget`: **writing while counting is reflowing.**
* `Reflow.LastLine.unique`: there is only one last line.
* `Reflow.Tracks.place`, `Reflow.exists_tracks`: placing a word, and words, keeps track of it.
* `Reflow.write_counts`: **when columns can be counted**, and what they count.
-/

namespace TrustedHtml

/-! ### The length of words -/

namespace Text

/-- Every word is ended by white space, but for the last one. -/
theorem sum_length_wordsFrom (current cs : List Char) :
    ((wordsFrom current cs).map (·.length + 1)).sum ≤ current.length + cs.length + 1 := by
  induction cs generalizing current with
  | nil =>
      rw [wordsFrom]
      split <;> simp
  | cons c rest ih =>
      rw [wordsFrom, List.length_cons]
      split
      · have hrest := ih []
        rw [List.length_nil] at hrest
        split
        · omega
        · rw [List.map_cons, List.sum_cons]
          omega
      · have hword := ih (current ++ [c])
        rw [List.length_append, List.length_singleton] at hword
        omega

/-- The length of words with single spaces between them. -/
theorem length_intercalate (words : List String) :
    (" ".intercalate words).length = (words.map (·.length + 1)).sum - 1 := by
  induction words with
  | nil => rfl
  | cons word rest ih =>
      cases rest with
      | nil => simp
      | cons next more =>
          rw [String.intercalate_cons_cons, String.length_append, String.length_append, ih]
          simp only [List.map_cons, List.sum_cons]
          have hspace : (" " : String).length = 1 := rfl
          omega

/-- **Words with single spaces between them are no longer than their text.** -/
theorem length_intercalate_words (text : String) :
    (" ".intercalate (words text)).length ≤ text.length := by
  have hsum := sum_length_wordsFrom [] text.toList
  have hwords : (words text).map (·.length + 1) =
      (wordsFrom [] text.toList).map (·.length + 1) := by
    rw [words, wordsOfList, List.map_map]
    refine List.map_congr_left fun w _ => ?_
    rw [Function.comp, String.length_ofList]
  rw [length_intercalate, hwords]
  rw [List.length_nil, String.length_toList] at hsum
  omega

/-- There is no line break in a word. -/
theorem IsWord.newline_notMem {word : String} (h : IsWord word) : '\n' ∉ word.toList :=
  fun hmem => absurd (h.not_blank _ hmem) (by decide)

end Text

/-! ### Appending and counting -/

/-- An operation that appends to a text and counts. What has been appended stays, also if a
counter leaves its range. -/
abbrev Appending := EStateM Overflow String

namespace Appending

variable {α β : Type}

/-- Append a text. -/
def text (t : String) : Appending Unit :=
  modify (· ++ t)

/-- The result of an operation on counters. -/
def count (c : Except Overflow ℕ) : Appending ℕ :=
  match c with
  | .ok n => pure n
  | .error e => throw e

/-- What has become of an operation, without what had been appended when it failed. -/
def forget : EStateM.Result Overflow String α → Except Overflow (α × String)
  | .ok a written => .ok (a, written)
  | .error e _ => .error e

/-- What has been appended counts if nothing failed. -/
theorem forget_eq_ok_iff {x : EStateM.Result Overflow String α} {a : α} {written : String} :
    forget x = .ok (a, written) ↔ x = .ok a written := by
  cases x <;> simp [forget]

/-- An operation goes on with what the one before it has yielded and appended. -/
theorem forget_bind (x : Appending α) (k : α → Appending β) (written : String) :
    forget ((x >>= k) written) = forget (x written) >>= fun (a, out) => forget (k a out) := by
  simp only [Bind.bind, EStateM.bind]
  cases x written <;> rfl

@[simp]
theorem forget_text (t written : String) :
    forget (text t written) = .ok ((), written ++ t) := rfl

@[simp]
theorem forget_pure (a : α) (written : String) :
    forget ((pure a : Appending α) written) = .ok (a, written) := rfl

/-- Counting appends nothing. -/
@[simp]
theorem forget_count (c : Except Overflow ℕ) (written : String) :
    forget (count c written) = c.map (·, written) := by
  cases c <;> rfl

end Appending

/-- The current line of a text that is being written. -/
structure Line where
  /-- The length of the line, its indentation included. -/
  column : ℕ
  /-- Whether a word stands on the line. -/
  started : Bool
deriving DecidableEq, Repr

/-- Write a word: at the start of the text, behind a space, or behind a line break. The line that
has been begun is tried with a space and the word first. -/
def Line.place (r : Reflow) (margin : ℕ) (line : Line) (word : String) : Appending Line := do
  let column ←
    if line.started then do
      let reached ← .count (Counter.add line.column 1)
      let reached ← .count (Counter.add reached word.length)
      if reached > r.width then
        .text r.lineBreak
        pure margin
      else
        .text " "
        .count (Counter.add line.column 1)
    else pure line.column
  .text word
  let column ← .count (Counter.add column word.length)
  return ⟨column, true⟩

namespace Reflow

/-- Write words one after the other, from the start of a text on. -/
def writeWords (r : Reflow) (margin : ℕ) (words : List String) : Appending Line :=
  words.foldlM (Line.place r margin) ⟨margin, false⟩

/-- Write a text, reflowed. -/
def write (r : Reflow) (text : String) : Appending Unit := do
  if r.width = 0 then
    .text text
  else
    let margin ← .count r.margin
    let _ ← r.writeWords margin (Text.words text)
    pure ()

/-- **What has been appended since the last line break** and the indentation behind it, or since
the start. -/
structure LastLine (r : Reflow) (appended line : String) : Prop where
  newline_notMem : '\n' ∉ line.toList
  last : appended = line ∨ ∃ earlier, appended = earlier ++ r.lineBreak ++ line

end Reflow

/-! ### Writing is reflowing -/

open Appending

/-- **Placing a word writes it.** -/
theorem Line.forget_place (r : Reflow) (margin column : ℕ) (started : Bool)
    (word written : String) :
    forget ((⟨column, started⟩ : Line).place r margin word written) =
      (Filling.place r margin ⟨written, column, started⟩ word).map
        fun f => (⟨f.column, f.started⟩, f.written) := by
  rw [Line.place, Filling.place]
  cases started with
  | false =>
      simp only [Bool.false_eq_true, ↓reduceIte, pure_bind, forget_bind, forget_text, forget_count]
      cases Counter.add column word.length <;> rfl
  | true =>
      simp only [↓reduceIte, forget_bind, forget_count]
      cases Counter.add column 1 with
      | error e => rfl
      | ok next =>
          simp only [Except.map, Except.ok_bind]
          cases hreached : Counter.add next word.length with
          | error e => rfl
          | ok reached =>
              simp only [Except.ok_bind]
              split
              · simp only [forget_bind, forget_text, forget_pure, forget_count, Except.ok_bind]
                cases Counter.add margin word.length <;> rfl
              · simp only [forget_bind, forget_text, forget_pure, forget_count, Except.ok_bind,
                  Except.map, hreached]
                rfl

namespace Reflow

variable {r : Reflow}

/-- Placing words one after the other writes them. -/
theorem forget_foldlM_place (margin column : ℕ) (started : Bool) (words : List String)
    (written : String) :
    forget (words.foldlM (Line.place r margin) ⟨column, started⟩ written) =
      (words.foldlM (Filling.place r margin) ⟨written, column, started⟩).map
        fun f => (⟨f.column, f.started⟩, f.written) := by
  induction words generalizing column started written with
  | nil => rfl
  | cons word rest ih =>
      rw [List.foldlM_cons, List.foldlM_cons, forget_bind, Line.forget_place]
      cases Filling.place r margin ⟨written, column, started⟩ word with
      | error e => rfl
      | ok f => exact ih f.column f.started f.written

/-- **Writing while counting is reflowing**, but for what has been appended before a failure. -/
theorem append_eq_forget (r : Reflow) (written text : String) :
    r.append written text = (forget (r.write text written)).map (·.2) := by
  rw [append, write]
  split
  · rfl
  · rw [forget_bind, forget_count]
    cases r.margin with
    | error e => rfl
    | ok margin =>
        have hwords : forget (r.writeWords margin (Text.words text) written) = _ :=
          forget_foldlM_place margin margin false (Text.words text) written
        simp only [Except.map, Except.ok_bind, forget_bind, hwords]
        cases (Text.words text).foldlM (Filling.place r margin) ⟨written, margin, false⟩ <;> rfl

/-! ### Last lines -/

/-- A line break breaks the line. -/
theorem newline_mem_lineBreak (r : Reflow) : '\n' ∈ r.lineBreak.toList := by
  rw [lineBreak, String.toList_append]
  exact List.mem_append_left _ (List.mem_singleton_self _)

/-- Behind the last newline there are the end of the last line break and the last line. -/
theorem length_takeWhile_lineBreak {line : String} (hline : '\n' ∉ line.toList)
    (earlier : String) :
    ((earlier ++ r.lineBreak ++ line).toList.reverse.takeWhile (· != '\n')).length =
      line.length + (r.lineBreak.toList.reverse.takeWhile (· != '\n')).length := by
  have hstops : ¬ (r.lineBreak.toList.reverse.takeWhile (· != '\n')).length =
      r.lineBreak.toList.reverse.length := by
    intro hlength
    have hall := List.takeWhile_eq_self_iff.mp
      ((List.takeWhile_prefix (· != '\n')).eq_of_length hlength)
    have hnewline := hall '\n' (List.mem_reverse.mpr r.newline_mem_lineBreak)
    exact absurd hnewline (by decide)
  have hplain : ∀ c ∈ line.toList.reverse, (c != '\n') = true := by
    intro c hc
    rw [bne_iff_ne]
    rintro rfl
    exact hline (List.mem_reverse.mp hc)
  rw [String.toList_append, String.toList_append, List.reverse_append, List.reverse_append,
    List.takeWhile_append_of_pos hplain, List.takeWhile_append, if_neg hstops, List.length_append,
    List.length_reverse, String.length_toList]

/-- **There is only one last line.** -/
theorem LastLine.unique {appended line other : String} (h : r.LastLine appended line)
    (h' : r.LastLine appended other) : other = line := by
  have hbreaks : ∀ earlier line : String, '\n' ∈ (earlier ++ r.lineBreak ++ line).toList := by
    intro earlier line
    rw [String.toList_append, String.toList_append]
    exact List.mem_append_left _ (List.mem_append_right _ r.newline_mem_lineBreak)
  obtain ⟨hline, rfl | ⟨earlier, rfl⟩⟩ := h
  · obtain ⟨-, rfl | ⟨earlier, rfl⟩⟩ := h'
    · rfl
    · exact absurd (hbreaks earlier other) hline
  · obtain ⟨hother, rfl | ⟨earlier', heq⟩⟩ := h'
    · exact absurd (hbreaks earlier line) hother
    · have hlength := length_takeWhile_lineBreak (r := r) hline earlier
      rw [heq, length_takeWhile_lineBreak hother, Nat.add_right_cancel_iff, ← String.length_toList,
        ← String.length_toList] at hlength
      have hlists := congrArg String.toList heq
      rw [String.toList_append, String.toList_append (s := earlier' ++ r.lineBreak)] at hlists
      exact String.toList_inj.mp (List.append_inj_right' hlists hlength.symm).symm

/-! ### Columns -/

/-- The columns of the end of a line are among those of the line. -/
theorem columns_le_append_left (line more : List String) :
    r.columns more ≤ r.columns (line ++ more) := by
  have hline : (" ".intercalate more).length ≤ (" ".intercalate (line ++ more)).length := by
    rw [Text.length_intercalate, Text.length_intercalate, List.map_append, List.sum_append]
    omega
  exact Nat.add_le_add_left hline _

/-- **The column is counted from the last line break on**: `f` is what has become of a text when
the words `before` have been placed behind `written`, and the last of them stand on the current
line. -/
def Tracks (r : Reflow) (written : String) (before : List String) (f : Filling) : Prop :=
  ∃ base line, (base = "" ∨ ∃ earlier, base = earlier ++ r.lineBreak) ∧ line <:+ before ∧
    f = ⟨written ++ base ++ " ".intercalate line, r.columns line, !line.isEmpty⟩

/-- **One word is placed**, if the words up to it could be counted on one line. -/
theorem Tracks.place {written word : String} {before : List String} {f : Filling}
    (h : r.Tracks written before f) (hcolumns : r.columns (before ++ [word]) < Counter.bound) :
    ∃ f', Filling.place r (r.depth * r.indent.length) f word = .ok f' ∧
      r.Tracks written (before ++ [word]) f' := by
  obtain ⟨base, line, hbase, ⟨done, rfl⟩, rfl⟩ := h
  rw [List.append_assoc] at hcolumns ⊢
  have hreached : r.columns (line ++ [word]) < Counter.bound :=
    (columns_le_append_left done (line ++ [word])).trans_lt hcolumns
  by_cases hline : line = []
  · subst hline
    rw [List.nil_append] at hreached
    refine ⟨Filling.onLine r (written ++ base) [word], ?_, base, [word], hbase, ⟨done, rfl⟩, rfl⟩
    have hplaced := Filling.place_first (r := r) (written ++ base) word
    rw [if_pos hreached] at hplaced
    rw [← hplaced, String.intercalate_nil, String.append_empty]
    rfl
  · have hstarted : (!line.isEmpty) = true := by simp [hline]
    have hplaced := Filling.place_onLine (r := r) hline (written ++ base) word
    rw [if_pos hreached] at hplaced
    rw [hstarted]
    refine ⟨_, hplaced, ?_⟩
    split
    · refine ⟨base ++ " ".intercalate line ++ r.lineBreak, [word], .inr ⟨_, rfl⟩,
        ⟨done ++ line, List.append_assoc ..⟩, ?_⟩
      simp only [Filling.onLine, String.append_assoc]
      rfl
    · refine ⟨base, line ++ [word], hbase, ⟨done, rfl⟩, ?_⟩
      simp [Filling.onLine]

/-- **All words are placed**, if they could be counted on one line. -/
theorem exists_tracks {words : List String} (hcolumns : r.columns words < Counter.bound)
    (written : String) :
    ∃ f, words.foldlM (Filling.place r (r.depth * r.indent.length))
      ⟨written, r.depth * r.indent.length, false⟩ = .ok f ∧ r.Tracks written words f := by
  induction words using List.reverseRecOn with
  | nil =>
      refine ⟨_, rfl, "", [], .inl rfl, List.nil_suffix, ?_⟩
      rw [String.intercalate_nil, String.append_empty, String.append_empty]
      rfl
  | append_singleton before word ih =>
      obtain ⟨f, hf, htracks⟩ := ih ((columns_le_append before [word]).trans_lt hcolumns)
      obtain ⟨f', hf', htracks'⟩ := htracks.place hcolumns
      refine ⟨f', ?_, htracks'⟩
      rw [List.foldlM_append, hf, Except.ok_bind, List.foldlM_cons, hf']
      rfl

/-- There is no line break between words. -/
theorem newline_notMem_intercalate {line : List String}
    (hline : ∀ word ∈ line, Text.IsWord word) : '\n' ∉ (" ".intercalate line).toList := by
  induction line with
  | nil => exact List.not_mem_nil
  | cons word rest ih =>
      obtain ⟨hword, hrest⟩ := List.forall_mem_cons.mp hline
      cases rest with
      | nil =>
          rw [String.intercalate_singleton]
          exact hword.newline_notMem
      | cons next more =>
          rw [String.intercalate_cons_cons, String.toList_append, String.toList_append,
            List.mem_append, List.mem_append]
          rintro ((hmem | hmem) | hmem)
          · exact hword.newline_notMem hmem
          · exact absurd (List.mem_singleton.mp hmem) (by decide)
          · exact ih hrest hmem

/-- What the column counts, if words have been placed. -/
theorem Tracks.exists_lastLine {written : String} {before : List String} {f : Filling}
    (hwords : ∀ word ∈ before, Text.IsWord word) (h : r.Tracks written before f) :
    ∃ appended last, f.written = written ++ appended ∧ r.LastLine appended last ∧
      f.column = r.depth * r.indent.length + last.length := by
  obtain ⟨base, line, hbase, hline, rfl⟩ := h
  refine ⟨base ++ " ".intercalate line, " ".intercalate line, String.append_assoc .., ⟨?_, ?_⟩, rfl⟩
  · exact newline_notMem_intercalate fun word hword => hwords word (hline.mem hword)
  · obtain rfl | ⟨earlier, rfl⟩ := hbase
    · exact .inl (String.empty_append ..)
    · exact .inr ⟨earlier, rfl⟩

/-- **When columns can be counted.** Reflowing can be carried out as it writes. If the indentation
and the text fit the counter together, no sum overflows, and at every word the column is that of
the indentation and of what has been appended since the last line break. If the indentation alone
does not fit, nothing is appended, whatever the text. -/
theorem write_counts (r : Reflow) (hwidth : 0 < r.width) (text written : String) :
    r.append written text = (forget (r.write text written)).map (·.2) ∧
    (r.depth * r.indent.length + text.length < Counter.bound →
      (∃ filled, r.write text written = .ok () filled) ∧
      ∀ before after, Text.words text = before ++ after →
        ∃ line appended,
          r.writeWords (r.depth * r.indent.length) before written = .ok line (written ++ appended) ∧
          (∃! last, r.LastLine appended last) ∧ ∀ last, r.LastLine appended last →
            line.column = r.depth * r.indent.length + last.length) ∧
    (Counter.bound ≤ r.depth * r.indent.length →
      r.write text written = .error .multiply written) := by
  refine ⟨append_eq_forget r written text, fun hfits => ?_, fun hover => ?_⟩
  · have hbefore : ∀ before after, Text.words text = before ++ after →
        ∃ line appended,
          r.writeWords (r.depth * r.indent.length) before written = .ok line (written ++ appended) ∧
          (∃! last, r.LastLine appended last) ∧ ∀ last, r.LastLine appended last →
            line.column = r.depth * r.indent.length + last.length := by
      intro before after hsplit
      have hcolumns : r.columns before < Counter.bound :=
        calc r.columns before
          _ ≤ r.columns (Text.words text) := hsplit ▸ columns_le_append before after
          _ ≤ r.depth * r.indent.length + text.length :=
              Nat.add_le_add_left (Text.length_intercalate_words text) _
          _ < Counter.bound := hfits
      have hwords : ∀ word ∈ before, Text.IsWord word := fun word hword =>
        Text.isWord_of_mem_words (hsplit ▸ List.mem_append_left after hword)
      obtain ⟨f, hf, htracks⟩ := exists_tracks hcolumns written
      obtain ⟨appended, last, happended, hlast, hcolumn⟩ := htracks.exists_lastLine hwords
      refine ⟨⟨f.column, f.started⟩, appended, ?_, ⟨last, hlast, fun _ h => hlast.unique h⟩, ?_⟩
      · rw [← happended, ← forget_eq_ok_iff, writeWords, forget_foldlM_place, hf]
        rfl
      · intro other hother
        rw [hlast.unique hother, hcolumn]
    refine ⟨?_, hbefore⟩
    obtain ⟨line, appended, hline, -⟩ := hbefore (Text.words text) [] (List.append_nil _).symm
    have hmargin : r.margin = .ok (r.depth * r.indent.length) :=
      Counter.mul_eq_ok_iff.mpr ⟨rfl, (Nat.le_add_right _ _).trans_lt hfits⟩
    refine ⟨written ++ appended, forget_eq_ok_iff.mp ?_⟩
    rw [write, if_neg (Nat.pos_iff_ne_zero.mp hwidth)]
    simp only [forget_bind, forget_count, hmargin, Except.map, Except.ok_bind, hline]
    rfl
  · have hmargin : r.margin = .error .multiply := if_neg (Nat.not_lt.mpr hover)
    rw [write, if_neg (Nat.pos_iff_ne_zero.mp hwidth), hmargin]
    rfl

/-- Before the last of three words is placed, the second one stands on a line of its own, and the
column is that of the indentation and of the two characters of this word. An indentation of
`2 ^ 64` characters is too long for any text. -/
theorem write_counts_umlauts :
    let r : Reflow := ⟨7, 1, "  "⟩
    let long : Reflow := ⟨7, 2 ^ 63, "  "⟩
    let margin := r.depth * r.indent.length
    let text := " ääää\töö\n cc "
    0 < r.width ∧ margin + text.length < Counter.bound ∧
      Text.words text = ["ääää", "öö"] ++ ["cc"] ∧ r.LastLine "ääää\n  öö" "öö" ∧
      (∃ line, r.writeWords margin ["ääää", "öö"] "a: " = .ok line ("a: " ++ "ääää\n  öö") ∧
        line.column = margin + "öö".length) ∧
      long.write "" "a: " = .error .multiply "a: " := by
  intro r long margin text
  have hfits : margin + text.length < Counter.bound := by decide +kernel
  have hwords : Text.words text = ["ääää", "öö"] ++ ["cc"] := by decide +kernel
  have hlast : r.LastLine "ääää\n  öö" "öö" :=
    ⟨by decide +kernel, .inr ⟨"ääää", by decide +kernel⟩⟩
  have hrun : forget (r.writeWords margin ["ääää", "öö"] "a: ") =
      .ok (⟨4, true⟩, "a: " ++ "ääää\n  öö") := by decide +kernel
  refine ⟨by decide, hfits, hwords, hlast, ⟨⟨4, true⟩, forget_eq_ok_iff.mp hrun, ?_⟩, ?_⟩
  · obtain ⟨line, appended, hline, -, hcolumn⟩ :=
      ((write_counts r (by decide) text "a: ").2.1 hfits).2 _ _ hwords
    rw [forget_eq_ok_iff.mp hrun, EStateM.Result.ok.injEq] at hline
    obtain ⟨rfl, happended⟩ := hline
    rw [← String.toList_inj, String.toList_append, String.toList_append,
      List.append_cancel_left_eq, String.toList_inj] at happended
    exact hcolumn "öö" (happended ▸ hlast)
  · exact (write_counts long (by decide) "" "a: ").2.2 (by decide)

end Reflow

end TrustedHtml
