import Mathlib.Data.List.TakeWhile
import TrustedHtml.Proofs.Delimiters
import TrustedHtml.Proofs.Outcome

/-!
# Fresh Lines

A block element begins a line unless it finds itself on a fresh one. That is judged from the
static text that is not yet a chunk: if text is merged, this is all of it since the last step,
and if it is left in pieces, it is the last piece alone. The two judgements agree where the last
piece is *solid*, that is, more than indentation.

Pieces are *steady* if this is so wherever it matters. Two programs that are assembled from
steady pieces, one with its text merged and one without, are kept alike by every piece, so they
put out the same in the end. What is known to be solid is a line break, the end of a tag, and
every text that is not blank, as neither escaping nor reflowing makes a text blank.

## Main definitions

* `Assembly.IsSolid`: a text that is more than indentation.
* `Piece.Steady`: no piece hides a line break from an element behind it.

## Main results

* `Program.same_assemble`: **steady pieces put out the same**, merged or not.
* `SafeString.exists_not_blank_of_check`, `Reflow.exists_not_blank_of_apply`: what is not blank
  is not written as blank.
-/

namespace TrustedHtml

/-! ### Fresh lines in the last piece -/

/-- The layout with static text in pieces, or merged. -/
def LayoutOptions.setSeparate (o : LayoutOptions) (separate : Bool) : LayoutOptions :=
  { o with separate }

namespace Assembly

variable {o : LayoutOptions} {separate : Bool} {a a' : Assembly} {text cover : String}

/-- A text with something in it that is no indentation. -/
def IsSolid (text : String) : Prop :=
  ∃ c ∈ text.toList, isIndentation c = false

/-- A line break is solid, whatever the indentation behind it is. -/
theorem isSolid_lineBreak (o : LayoutOptions) (depth : ℕ) : IsSolid (o.lineBreak depth) := by
  refine ⟨'\n', ?_, by decide⟩
  simp [LayoutOptions.lineBreak]

/-- A solid text alone decides whether the output ends in a fresh line. -/
theorem endsFresh_of_isSolid (h : IsSolid text) (older : List String) :
    endsFresh (text :: older) = endsFresh [text] := by
  obtain ⟨c, hc, hsolid⟩ := h
  rw [endsFresh, endsFresh]
  cases hdrop : text.toList.reverse.dropWhile isIndentation with
  | nil =>
      have hall := List.dropWhile_eq_nil_iff.mp hdrop c (List.mem_reverse.mpr hc)
      rw [hsolid] at hall
      cases hall
  | cons d rest => rfl

/-- A solid text that is written last alone decides about the fresh line. -/
theorem onFreshLine_write (h : IsSolid text) (o : LayoutOptions) (a : Assembly) :
    (a.write o text).onFreshLine = endsFresh [text] :=
  endsFresh_of_isSolid h _

/-- Nothing is known about the line behind a step. -/
theorem onFreshLine_step (o : LayoutOptions) (a : Assembly) (chunk : Chunk) :
    (a.add o (.step chunk)).onFreshLine = false := by
  obtain ⟨chunks, _ | texts⟩ := a <;> rfl

/-- Programs being assembled that put out the same so far, and agree on whether they stand on
a fresh line, unless the layout has none. -/
structure Alike (o : LayoutOptions) (a a' : Assembly) : Prop where
  same : a.program.Same a'.program
  fresh : o.isCompact = false → a.onFreshLine = a'.onFreshLine

/-- Both put out a text that is written. -/
theorem same_write (h : a.program.Same a'.program) (o o' : LayoutOptions) (text : String) :
    (a.write o text).program.Same (a'.write o' text).program := by
  intro vs
  rw [outcome_write, outcome_write, h vs]

/-- A solid text keeps them alike. -/
theorem Alike.write (h : a.Alike o a') (htext : o.isCompact = true ∨ IsSolid text)
    (o' : LayoutOptions) : (a.write o text).Alike o (a'.write o' text) where
  same := same_write h.same o o' text
  fresh hlayout := by
    obtain hcompact | hsolid := htext
    · rw [hlayout] at hcompact
      cases hcompact
    · rw [onFreshLine_write hsolid, onFreshLine_write hsolid]

/-- Any text keeps them alike if a solid one follows. -/
theorem Alike.write_covered (h : a.Alike o a') (hcover : IsSolid cover) (o' : LayoutOptions)
    (text : String) :
    ((a.write o text).write o cover).Alike o ((a'.write o' text).write o' cover) where
  same := same_write (same_write h.same o o' text) o o' cover
  fresh _ := by rw [onFreshLine_write hcover, onFreshLine_write hcover]

/-- Both begin a line, or neither does. -/
theorem Alike.freshLine (h : a.Alike o a') (hlayout : o.isCompact = false) (depth : ℕ) :
    (a.add o (.freshLine depth)).Alike o (a'.add (o.setSeparate separate) (.freshLine depth)) := by
  rw [add, add, ← h.fresh hlayout]
  by_cases hfresh : a.onFreshLine = true
  · rw [if_pos hfresh, if_pos hfresh]
    exact h
  · rw [if_neg hfresh, if_neg hfresh]
    exact h.write (.inr (isSolid_lineBreak o depth)) _

/-- Steps that put out the same keep them alike. -/
theorem Alike.step (h : a.Alike o a') {chunk chunk' : Chunk}
    (hchunk : ∀ vs, (Program.renderChunk chunk vs).outcome =
      (Program.renderChunk chunk' vs).outcome) (o' : LayoutOptions) :
    (a.add o (.step chunk)).Alike o (a'.add o' (.step chunk')) where
  same vs := by
    rw [program_step, program_step, Program.outcome_append, Program.outcome_append,
      Program.outcome_singleton, Program.outcome_singleton, h.same vs, hchunk]
  fresh _ := by rw [onFreshLine_step, onFreshLine_step]

end Assembly

namespace Piece

/-- The same piece, up to the chunks of programs in it. -/
inductive Alike : Piece → Piece → Prop
  | text (text : String) : Alike (.text text) (.text text)
  | freshLine (depth : ℕ) : Alike (.freshLine depth) (.freshLine depth)
  | step {chunk chunk' : Chunk} (h : ∀ vs, (Program.renderChunk chunk vs).outcome =
      (Program.renderChunk chunk' vs).outcome) : Alike (.step chunk) (.step chunk')

/-- Pieces none of which hides a line break from what follows: a text that is no more than
indentation is followed by one that is more, unless the layout has no fresh lines. -/
inductive Steady (o : LayoutOptions) : List Piece → Prop
  | nil : Steady o []
  | text {text : String} {rest : List Piece}
      (htext : o.isCompact = true ∨ Assembly.IsSolid text) (hrest : Steady o rest) :
      Steady o (.text text :: rest)
  | covered {text cover : String} {rest : List Piece} (hcover : Assembly.IsSolid cover)
      (hrest : Steady o rest) : Steady o (.text text :: .text cover :: rest)
  | freshLine {depth : ℕ} {rest : List Piece} (hlayout : o.isCompact = false)
      (hrest : Steady o rest) : Steady o (.freshLine depth :: rest)
  | step {chunk : Chunk} {rest : List Piece} (hrest : Steady o rest) :
      Steady o (.step chunk :: rest)

variable {o : LayoutOptions} {separate : Bool} {pieces pieces' rest : List Piece}

/-- A piece is like itself. -/
theorem Alike.refl (piece : Piece) : piece.Alike piece := by
  cases piece with
  | text text => exact .text text
  | freshLine depth => exact .freshLine depth
  | step chunk => exact .step fun _ => rfl

/-- Steady pieces behind steady pieces. -/
theorem Steady.append (h : Steady o pieces) (hrest : Steady o rest) :
    Steady o (pieces ++ rest) := by
  induction h with
  | nil => exact hrest
  | text htext _ ih => exact .text htext ih
  | covered hcover _ ih => exact .covered hcover ih
  | freshLine hlayout _ ih => exact .freshLine hlayout ih
  | step _ ih => exact .step ih

/-- Steady pieces that are alike keep what is being assembled alike. -/
theorem Steady.run (h : Steady o pieces) : ∀ {pieces' : List Piece} {a a' : Assembly},
    List.Forall₂ Alike pieces pieces' → a.Alike o a' →
      (pieces.foldl (Assembly.add o) a).Alike o
        (pieces'.foldl (Assembly.add (o.setSeparate separate)) a') := by
  induction h with
  | nil =>
      intro pieces' a a' hpieces ha
      cases hpieces
      exact ha
  | text htext _ ih =>
      rintro _ a a' (_ | ⟨hpiece, hlater⟩) ha
      cases hpiece with
      | text => exact (ih hlater :) (ha.write htext _)
  | covered hcover _ ih =>
      rintro _ a a' (_ | ⟨hpiece, _ | ⟨hnext, hlater⟩⟩) ha
      cases hpiece with
      | text =>
          cases hnext with
          | text => exact (ih hlater :) (ha.write_covered hcover _ _)
  | freshLine hlayout _ ih =>
      rintro _ a a' (_ | ⟨hpiece, hlater⟩) ha
      cases hpiece with
      | freshLine => exact (ih hlater :) (ha.freshLine hlayout _)
  | step _ ih =>
      rintro _ a a' (_ | ⟨hpiece, hlater⟩) ha
      cases hpiece with
      | step hchunk => exact (ih hlater :) (ha.step hchunk _)

end Piece

/-- **Steady pieces put out the same**, whether their text is merged or left in pieces. -/
theorem Program.same_assemble {o : LayoutOptions} {pieces pieces' : List Piece}
    (halike : List.Forall₂ Piece.Alike pieces pieces') (h : Piece.Steady o pieces)
    (separate : Bool) : (assemble o pieces).Same (assemble (o.setSeparate separate) pieces') :=
  (h.run halike ⟨fun _ => rfl, fun _ => rfl⟩).same

/-! ### Texts that are not blank -/

/-- What is not blank is no indentation. -/
theorem Assembly.isSolid_of_not_blank {text : String}
    (h : ∃ c ∈ text.toList, Text.isBlank c = false) : IsSolid text := by
  obtain ⟨c, hc, hblank⟩ := h
  refine ⟨c, hc, ?_⟩
  rw [isIndentation, Bool.or_eq_false_iff, beq_eq_false_iff_ne, beq_eq_false_iff_ne]
  constructor <;> (rintro rfl; exact absurd hblank (by decide))

/-- Encoding a character that is not blank leaves one. -/
theorem Entity.exists_mem_encodeChar {c : Char} (h : Text.isBlank c = false) :
    ∃ d ∈ encodeChar c, Text.isBlank d = false := by
  rw [encodeChar]
  split
  · rename_i entity hentity
    rw [ofChar?.eq_def] at hentity
    split at hentity <;> cases hentity <;> exact ⟨'&', by decide, by decide⟩
  · exact ⟨c, List.mem_singleton_self c, h⟩

section Solid

variable [UrlReader]

/-- A string that meets the requirement of a text or a fragment keeps what is not blank. -/
theorem SafeString.exists_not_blank_of_check {s : SafeString} {level : TrustLevel}
    {checked : String} (hlevel : level = .textSafe ∨ level = .htmlSafe)
    (hcheck : s.check level = .ok checked) (h : ∃ c ∈ s.text.toList, Text.isBlank c = false) :
    ∃ c ∈ checked.toList, Text.isBlank c = false := by
  obtain ⟨c, hc, hblank⟩ := h
  rw [check] at hcheck
  split at hcheck
  · cases hcheck
    exact ⟨c, hc, hblank⟩
  · split at hcheck
    · obtain rfl | rfl := hlevel
      · cases hcheck
        obtain ⟨d, hd, hplain⟩ := Entity.exists_mem_encodeChar hblank
        refine ⟨d, ?_, hplain⟩
        rw [Escape.text, Entity.encode, String.toList_ofList]
        exact List.mem_flatMap.mpr ⟨c, hc, hd⟩
      · cases hcheck
    · cases hcheck

end Solid

/-- Placing a word keeps what is written, and writes the word. -/
theorem Filling.subset_place {r : Reflow} {margin : ℕ} {f g : Filling} {word : String}
    (h : f.place r margin word = .ok g) :
    f.written.toList ⊆ g.written.toList ∧ word.toList ⊆ g.written.toList := by
  simp only [place, bind, Except.bind, pure, Except.pure] at h
  split at h
  · split at h
    · cases h
    · split at h
      · cases h
      · split at h
        · split at h
          · cases h
          · cases h
            simp only [String.toList_append, List.append_assoc]
            exact ⟨List.subset_append_left _ _, List.subset_append_of_subset_right _
              (List.subset_append_right _ _)⟩
        · cases h
          simp only [String.toList_append, List.append_assoc]
          exact ⟨List.subset_append_left _ _, List.subset_append_of_subset_right _
            (List.subset_append_right _ _)⟩
  · split at h
    · cases h
    · cases h
      simp only [String.toList_append]
      exact ⟨List.subset_append_left _ _, List.subset_append_right _ _⟩

/-- Placing words keeps what is written, and writes the words. -/
theorem Filling.subset_foldlM_place {r : Reflow} {margin : ℕ} {words : List String}
    {f g : Filling} (h : words.foldlM (place r margin) f = .ok g) :
    f.written.toList ⊆ g.written.toList ∧ ∀ word ∈ words, word.toList ⊆ g.written.toList := by
  induction words generalizing f with
  | nil =>
      cases h
      exact ⟨List.Subset.refl _, by simp⟩
  | cons word rest ih =>
      rw [List.foldlM_cons] at h
      obtain ⟨placed, hplaced, hrest⟩ := Except.bind_eq_ok.mp h
      obtain ⟨hwritten, hword⟩ := subset_place hplaced
      obtain ⟨hkept, hwords⟩ := ih hrest
      exact ⟨List.Subset.trans hwritten hkept,
        List.forall_mem_cons.mpr ⟨List.Subset.trans hword hkept, hwords⟩⟩

/-- **Reflowing a text that is not blank** yields one that is not blank. -/
theorem Reflow.exists_not_blank_of_apply {r : Reflow} {text filled : String}
    (happly : r.apply text = .ok filled) (h : ∃ c ∈ text.toList, Text.isBlank c = false) :
    ∃ c ∈ filled.toList, Text.isBlank c = false := by
  obtain ⟨c, hc, hblank⟩ := h
  rw [apply, append] at happly
  split at happly
  · cases happly
    rw [String.empty_append]
    exact ⟨c, hc, hblank⟩
  · obtain ⟨margin, _, happly⟩ := Except.bind_eq_ok.mp happly
    obtain ⟨placed, hplaced, hpure⟩ := Except.bind_eq_ok.mp happly
    cases hpure
    have hword : c ∈ ((Text.words text).flatMap String.toList).filter (!Text.isBlank ·) := by
      rw [Text.filter_flatMap_words (fun _ hb => by rw [hb]; rfl), List.mem_filter, hblank]
      exact ⟨hc, rfl⟩
    obtain ⟨word, hmem, hcword⟩ := List.mem_flatMap.mp (List.mem_filter.mp hword).1
    exact ⟨c, (Filling.subset_foldlM_place hplaced).2 word hmem hcword, hblank⟩

end TrustedHtml
