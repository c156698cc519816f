import TrustedHtml.Proofs.Encoding
import TrustedHtml.Proofs.Layout
import TrustedHtml.Proofs.LineFilling
import TrustedHtml.Proofs.UntrustedText

/-!
# Fidelity of Texts

An untrusted string that stands in a text is encoded and then reflowed. Reflowing works on the
encoded text, so a line could be broken within an entity, or an entity could come into being where
two words meet. Neither happens. Encoding writes white space as it is and everything else without
white space, so the words of the encoded text are the encoded words of the string; lines are broken
between words only, and a line break has no ampersand. So a text that has been encoded and
reflowed decodes to the string laid out in the same lines, whose words are those of the string.

It follows from the words alone that nothing changes if a text is reflowed once more.

## Main definitions

* `Text.IsWord`: a text that is one word.

## Main results

* `Entity.words_encode`: the words of an encoded text.
* `Reflow.words_layOut`, `Reflow.decode_layOut`: words are laid out, and decoded, one by one.
* `Reflow.apply_apply`: reflowing a text again leaves it as it is.
* `Node.text_faithful`: **a text gives an untrusted string back**, word by word.
-/

namespace TrustedHtml

/-! ### Words -/

namespace Text

variable {current cs bs : List Char} {c : Char} {text word : String}

/-- White space ends a word, and the words behind it are those of the rest alone. -/
theorem wordsFrom_append_cons (hc : isBlank c = true) (current cs rest : List Char) :
    wordsFrom current (cs ++ c :: rest) = wordsFrom current cs ++ wordsFrom [] rest := by
  induction cs generalizing current with
  | nil =>
      rw [List.nil_append, wordsFrom, wordsFrom, if_pos hc]
      split <;> rfl
  | cons d ds ih =>
      rw [List.cons_append, wordsFrom, wordsFrom]
      split
      · split
        · exact ih []
        · rw [ih [], List.cons_append]
      · exact ih _

/-- White space in front of a text begins no word. -/
theorem wordsFrom_nil_append (hbs : ∀ b ∈ bs, isBlank b = true) (rest : List Char) :
    wordsFrom [] (bs ++ rest) = wordsFrom [] rest := by
  induction bs with
  | nil => rfl
  | cons b bs ih =>
      obtain ⟨hb, hbs⟩ := List.forall_mem_cons.mp hbs
      rw [List.cons_append, wordsFrom, if_pos hb, List.isEmpty_nil, if_pos rfl, ih hbs]

/-- What is not white space goes on with a word. -/
theorem wordsFrom_append (hcs : ∀ c ∈ cs, isBlank c = false) (current rest : List Char) :
    wordsFrom current (cs ++ rest) = wordsFrom (current ++ cs) rest := by
  induction cs generalizing current with
  | nil => rw [List.nil_append, List.append_nil]
  | cons c cs ih =>
      obtain ⟨hc, hcs⟩ := List.forall_mem_cons.mp hcs
      rw [List.cons_append, wordsFrom, if_neg (by simp [hc]), ih hcs, List.append_assoc]
      rfl

/-- Words are not empty and have no white space. -/
theorem ne_nil_of_mem_wordsFrom (hcurrent : ∀ c ∈ current, isBlank c = false) {w : List Char}
    (h : w ∈ wordsFrom current cs) : w ≠ [] ∧ ∀ c ∈ w, isBlank c = false := by
  induction cs generalizing current with
  | nil =>
      rw [wordsFrom] at h
      split at h
      · cases h
      · rename_i hne
        obtain rfl := List.mem_singleton.mp h
        exact ⟨fun hnil => hne (by rw [hnil]; rfl), hcurrent⟩
  | cons c rest ih =>
      rw [wordsFrom] at h
      split at h
      · split at h
        · exact ih (List.forall_mem_nil _) h
        · rename_i hne
          obtain rfl | h := List.mem_cons.mp h
          · exact ⟨fun hnil => hne (by rw [hnil]; rfl), hcurrent⟩
          · exact ih (List.forall_mem_nil _) h
      · rename_i hc
        refine ih ?_ h
        rw [List.forall_mem_append, List.forall_mem_singleton]
        exact ⟨hcurrent, Bool.eq_false_iff.mpr hc⟩

/-- **A text that is one word.** -/
structure IsWord (word : String) : Prop where
  ne_empty : word ≠ ""
  not_blank : ∀ c ∈ word.toList, isBlank c = false

/-- The words of a text are words. -/
theorem isWord_of_mem_words (h : word ∈ words text) : IsWord word := by
  obtain ⟨w, hw, rfl⟩ := List.mem_map.mp h
  obtain ⟨hne, hblank⟩ := ne_nil_of_mem_wordsFrom (List.forall_mem_nil _) hw
  refine ⟨fun hempty => hne ?_, by rwa [String.toList_ofList]⟩
  rw [← String.toList_ofList (l := w), hempty, String.toList_empty]

/-- A word is its only word. -/
theorem IsWord.words_eq (h : IsWord word) : words word = [word] := by
  have hne : ¬ word.toList.isEmpty = true := by
    rw [List.isEmpty_iff, String.toList_eq_nil_iff]
    exact h.ne_empty
  have hword := wordsFrom_append h.not_blank [] []
  rw [List.append_nil, List.nil_append, wordsFrom, if_neg hne] at hword
  rw [words, wordsOfList, hword, List.map_singleton, String.ofList_toList]

/-- A space is blank. -/
theorem isBlank_of_mem_space : ∀ b ∈ " ".toList, isBlank b = true :=
  List.all_eq_true.mp (by decide)

/-- The words of two texts with white space between them are those of the one and of the other. -/
theorem words_append_append {blank : String} (hne : blank ≠ "")
    (hblank : ∀ b ∈ blank.toList, isBlank b = true) (s t : String) :
    words (s ++ blank ++ t) = words s ++ words t := by
  obtain ⟨b, bs, hbs⟩ := List.exists_cons_of_ne_nil (mt String.toList_eq_nil_iff.mp hne)
  rw [hbs, List.forall_mem_cons] at hblank
  rw [words, wordsOfList, String.toList_append, String.toList_append, List.append_assoc, hbs,
    List.cons_append, wordsFrom_append_cons hblank.1, wordsFrom_nil_append hblank.2,
    List.map_append]
  rfl

end Text

/-! ### Words of encoded texts -/

namespace Entity

/-- White space is written as it is. -/
theorem encodeChar_of_isBlank {c : Char} (h : Text.isBlank c = true) : encodeChar c = [c] := by
  rw [encodeChar]
  cases hentity : ofChar? c with
  | none => rfl
  | some entity =>
      rw [ofChar?.eq_def] at hentity
      split at hentity <;> first | exact absurd h (by decide) | cases hentity

/-- Nothing else is written with white space. -/
theorem not_isBlank_of_mem_encodeChar {c d : Char} (h : Text.isBlank c = false)
    (hd : d ∈ encodeChar c) : Text.isBlank d = false := by
  obtain ⟨entity, hmem, hentity⟩ | ⟨hplain, -⟩ := encodeChar_cases c
  · have hentities : (all.all fun entity => entity.toList.all (!Text.isBlank ·)) = true := by
      decide
    rw [hentity] at hd
    have hentity := List.all_eq_true.mp hentities entity hmem
    rw [← Bool.not_eq_true']
    exact List.all_eq_true.mp hentity d hd
  · rw [hplain, List.mem_singleton] at hd
    rw [hd, h]

/-- Characters that are encoded one by one have the encoded words. -/
theorem wordsFrom_flatMap (cs current : List Char) :
    Text.wordsFrom (current.flatMap encodeChar) (cs.flatMap encodeChar) =
      (Text.wordsFrom current cs).map (·.flatMap encodeChar) := by
  induction cs generalizing current with
  | nil =>
      rw [List.flatMap_nil, Text.wordsFrom, Text.wordsFrom, Markup.encode_isEmpty]
      split <;> rfl
  | cons c rest ih =>
      rw [List.flatMap_cons, Text.wordsFrom]
      by_cases hc : Text.isBlank c = true
      · rw [encodeChar_of_isBlank hc, List.singleton_append, Text.wordsFrom, if_pos hc, if_pos hc,
          Markup.encode_isEmpty]
        have hrest : Text.wordsFrom [] (rest.flatMap encodeChar) =
            (Text.wordsFrom [] rest).map (·.flatMap encodeChar) := ih []
        split
        · exact hrest
        · rw [hrest, List.map_cons]
      · have hword : ∀ d ∈ encodeChar c, Text.isBlank d = false :=
          fun d => not_isBlank_of_mem_encodeChar (Bool.eq_false_iff.mpr hc)
        have hcurrent : current.flatMap encodeChar ++ encodeChar c =
            (current ++ [c]).flatMap encodeChar := by
          rw [List.flatMap_append, List.flatMap_singleton]
        rw [if_neg hc, Text.wordsFrom_append hword, hcurrent, ih]

/-- **The words of an encoded text** are the encoded words of the text. -/
theorem words_encode (text : String) : Text.words (encode text) = (Text.words text).map encode := by
  have hwords := wordsFrom_flatMap text.toList []
  rw [List.flatMap_nil] at hwords
  rw [Text.words, Text.words, encode, String.toList_ofList, Text.wordsOfList, hwords, List.map_map,
    List.map_map]
  refine List.map_congr_left fun w _ => ?_
  rw [Function.comp, Function.comp, encode, String.toList_ofList]

/-- An encoded text is decoded on its own, whatever follows. -/
theorem decode_encode_append (s t : String) : decode (encode s ++ t) = s ++ decode t := by
  have hrun : ∀ cs rest : List Char,
      decodeChars (cs.flatMap encodeChar ++ rest) = cs ++ decodeChars rest := by
    intro cs rest
    induction cs with
    | nil => rfl
    | cons c cs ih =>
        rw [List.flatMap_cons, List.append_assoc, decodeChars_encodeChar, ih, List.cons_append]
  rw [decode, decode, encode, String.toList_append, String.toList_ofList, hrun,
    String.ofList_append, String.ofList_toList]

/-- White space is decoded as it is, whatever follows. -/
theorem decode_blank_append {blank : String} (h : ∀ b ∈ blank.toList, Text.isBlank b = true)
    (t : String) : decode (blank ++ t) = blank ++ decode t := by
  have hencode : encode blank = blank := by
    have hplain : blank.toList.flatMap encodeChar = blank.toList.flatMap ([·]) :=
      List.flatMap_congr fun b hb => encodeChar_of_isBlank (h b hb)
    rw [encode, hplain, List.flatMap_singleton', String.ofList_toList]
  have hdecode := decode_encode_append blank t
  rwa [hencode] at hdecode

end Entity

/-! ### Words of lines -/

namespace Reflow

variable {r : Reflow} {line : List String} {lines : List (List String)} {s text filled : String}

/-- A line break is white space if the indentation is. -/
theorem isBlank_of_mem_lineBreak (hindent : ∀ c ∈ r.indent.toList, Text.isBlank c = true)
    {b : Char} (hb : b ∈ r.lineBreak.toList) : Text.isBlank b = true := by
  by_contra hink
  have hnone := filter_lineBreak (r := r) (fun _ hc => Text.not_ink_of_isBlank hc)
    fun c hc => Text.not_ink_of_isBlank (hindent c hc)
  exact absurd (List.filter_eq_nil_iff.mp hnone b hb) (by simp [hink])

/-- A line break is not empty. -/
theorem lineBreak_ne_empty (r : Reflow) : r.lineBreak ≠ "" := by
  intro hempty
  have htext := congrArg String.toList hempty
  rw [lineBreak, String.toList_append] at htext
  cases htext

/-- The words of a line are the words that it is made of. -/
theorem words_line (hline : ∀ word ∈ line, Text.IsWord word) :
    Text.words (" ".intercalate line) = line := by
  induction line with
  | nil => rfl
  | cons word rest ih =>
      obtain ⟨hword, hrest⟩ := List.forall_mem_cons.mp hline
      cases rest with
      | nil => rw [String.intercalate_singleton, hword.words_eq]
      | cons next later =>
          rw [String.intercalate_cons_cons,
            Text.words_append_append (by decide) Text.isBlank_of_mem_space, hword.words_eq,
            ih hrest]
          rfl

/-- **The words of lines** are the words that they are made of, line by line. -/
theorem words_layOut (hindent : ∀ c ∈ r.indent.toList, Text.isBlank c = true)
    (hlines : ∀ word ∈ lines.flatten, Text.IsWord word) :
    Text.words (r.layOut lines) = lines.flatten := by
  induction lines with
  | nil => rfl
  | cons line more ih =>
      rw [List.flatten_cons, List.forall_mem_append] at hlines
      have hline := words_line hlines.1
      cases more with
      | nil =>
          rw [layOut, List.map_singleton, String.intercalate_singleton, hline]
          exact (List.append_nil line).symm
      | cons next later =>
          rw [layOut_cons_cons, Text.words_append_append r.lineBreak_ne_empty
            fun _ => isBlank_of_mem_lineBreak hindent, hline, ih hlines.2, ← List.flatten_cons]

/-- A line of encoded words is decoded to the line of the words. -/
theorem decode_line_append (line : List String) (t : String) :
    Entity.decode (" ".intercalate (line.map Entity.encode) ++ t) =
      " ".intercalate line ++ Entity.decode t := by
  induction line with
  | nil => rw [List.map_nil, String.intercalate_nil, String.empty_append, String.empty_append]
  | cons word rest ih =>
      cases rest with
      | nil => rw [List.map_singleton, String.intercalate_singleton, String.intercalate_singleton,
          Entity.decode_encode_append]
      | cons next later =>
          rw [List.map_cons] at ih
          rw [List.map_cons, List.map_cons, String.intercalate_cons_cons,
            String.intercalate_cons_cons, String.append_assoc, String.append_assoc,
            Entity.decode_encode_append, Entity.decode_blank_append Text.isBlank_of_mem_space, ih]
          simp only [String.append_assoc]

/-- **Lines of encoded words** are decoded to the lines of the words. -/
theorem decode_layOut (hindent : ∀ c ∈ r.indent.toList, Text.isBlank c = true)
    (lines : List (List String)) :
    Entity.decode (r.layOut (lines.map (·.map Entity.encode))) = r.layOut lines := by
  induction lines with
  | nil => rfl
  | cons line more ih =>
      cases more with
      | nil =>
          have hline := decode_line_append line ""
          rw [String.append_empty] at hline
          rw [List.map_singleton, layOut, layOut, List.map_singleton, List.map_singleton,
            String.intercalate_singleton, String.intercalate_singleton, hline]
          exact String.append_empty
      | cons next later =>
          rw [List.map_cons] at ih
          rw [List.map_cons, List.map_cons, layOut_cons_cons, layOut_cons_cons, String.append_assoc,
            decode_line_append,
            Entity.decode_blank_append fun _ => isBlank_of_mem_lineBreak hindent, ih]
          exact String.append_assoc.symm

/-- The lines that are filled with words have these words. -/
theorem flatten_filling (r : Reflow) (words : List String) : (r.filling words).flatten = words :=
  (r.fills_iff.mpr rfl).flatten_eq

/-- Reflowing a text keeps its words. -/
theorem words_apply (hindent : ∀ c ∈ r.indent.toList, Text.isBlank c = true)
    (h : r.apply text = .ok filled) : Text.words filled = Text.words text := by
  obtain hzero | hwidth := Nat.eq_zero_or_pos r.width
  · rw [apply_of_width_eq_zero hzero] at h
    cases h
    rfl
  · obtain ⟨-, rfl⟩ := (append_eq_ok_iff hwidth "" text filled).mp h
    rw [String.empty_append, words_layOut hindent, flatten_filling]
    rw [flatten_filling]
    exact fun word => Text.isWord_of_mem_words

/-- **Reflowing again** changes nothing. -/
theorem apply_apply (hindent : ∀ c ∈ r.indent.toList, Text.isBlank c = true)
    (h : r.apply text = .ok filled) : r.apply filled = .ok filled := by
  obtain hzero | hwidth := Nat.eq_zero_or_pos r.width
  · exact apply_of_width_eq_zero hzero filled
  · -- lines depend on the words alone
    obtain ⟨hcounts, hlaidOut⟩ := (append_eq_ok_iff hwidth "" text filled).mp h
    refine (append_eq_ok_iff hwidth "" filled filled).mpr ?_
    rw [words_apply hindent h]
    exact ⟨hcounts, hlaidOut⟩

/-- **A text that was encoded and reflowed** decodes to a text with the same words, and to the
same text if width 0 leaves it as it is. -/
theorem decode_apply (hindent : ∀ c ∈ r.indent.toList, Text.isBlank c = true)
    (h : r.apply (Entity.encode s) = .ok text) :
    Text.words (Entity.decode text) = Text.words s ∧ (r.width = 0 → Entity.decode text = s) := by
  obtain hzero | hwidth := Nat.eq_zero_or_pos r.width
  · rw [apply_of_width_eq_zero hzero] at h
    cases h
    rw [Entity.decode_encode]
    exact ⟨rfl, fun _ => rfl⟩
  · refine ⟨?_, fun hzero => absurd hzero hwidth.ne'⟩
    obtain ⟨-, rfl⟩ := (append_eq_ok_iff hwidth "" (Entity.encode s) text).mp h
    have hflatten := r.flatten_filling (Text.words (Entity.encode s))
    generalize r.filling (Text.words (Entity.encode s)) = lines at hflatten
    rw [Entity.words_encode] at hflatten
    -- the lines are those of the words of `s`, each word encoded
    have hwords : (lines.map (·.map Entity.decode)).flatten = Text.words s := by
      rw [← List.map_flatten, hflatten, List.map_map]
      exact List.map_id'' Entity.decode_encode _
    have hencoded : ∀ word ∈ lines.flatten, Entity.encode (Entity.decode word) = word := by
      rw [hflatten]
      rintro _ hword
      obtain ⟨word, -, rfl⟩ := List.mem_map.mp hword
      rw [Entity.decode_encode]
    have hline : ∀ line ∈ lines, (line.map Entity.decode).map Entity.encode = line := by
      intro line hline
      rw [List.map_map]
      refine (List.map_congr_left fun word hword => ?_).trans (List.map_id line)
      exact hencoded word (List.mem_flatten_of_mem hline hword)
    have hlines : (lines.map (·.map Entity.decode)).map (·.map Entity.encode) = lines := by
      rw [List.map_map]
      exact (List.map_congr_left hline).trans (List.map_id lines)
    rw [String.empty_append, ← hlines, decode_layOut hindent, words_layOut hindent, hwords]
    rw [hwords]
    exact fun word => Text.isWord_of_mem_words

end Reflow

/-! ### Texts in trees -/

namespace Node

variable [UrlReader] {o : LayoutOptions} {depth : ℕ} {width : Option ℕ} {s text : String}

/-- A text that is known is written when the tree is compiled. -/
theorem pieces_text_untrusted (hfilled : (o.reflow depth width).apply (Entity.encode s) = .ok text)
    (scope : Scope) : (Node.text (.concrete (.untrusted s)) width).pieces o depth scope =
      .ok [.text text] scope := by
  have hcheck : (SafeString.untrusted s).check .textSafe = .ok (Entity.encode s) := rfl
  have hreflow : (⟨width.getD o.textWidth, depth, o.indent⟩ : Reflow) = o.reflow depth width := rfl
  rw [pieces, Value.textPiece, hcheck, hreflow]
  dsimp only [Declaring.orTrust]
  rw [pure_bind, hfilled]
  rfl

/-- A text that is bound later becomes one step, which writes the last string that is bound to its
variable as it would have been written if it had been known. -/
theorem pieces_text_deferred (hfilled : (o.reflow depth width).apply (Entity.encode s) = .ok text)
    (v : Var) {scope : Scope} (hwf : scope.schema.WellFormed) :
    ∃ chunk later, (Node.text (.deferred v) width).pieces o depth scope = .ok [.step chunk] later ∧
      ∀ f args vs level, later.schema.Extends f → f.WellFormed → f.bind args = .ok vs →
        Binding.source? vs.schema v.name.text args = some (.untrusted s, level) →
        Program.renderChunk chunk vs = .write text := by
  obtain ⟨w, later, hattach⟩ : ∃ w later, Declaring.attach v .textSafe scope = .ok w later :=
    ⟨_, _, rfl⟩
  refine ⟨.scalar w (if 0 < width.getD o.textWidth then some (o.reflow depth width) else none),
    later, ?_, ?_⟩
  · rw [pieces, Value.textPiece]
    exact Declaring.bind_of_ok (Declaring.bind_of_ok hattach)
  · intro f args vs level hext hf hbind hsource
    obtain ⟨-, -, hoffers⟩ := (Declaring.attach_ensures v .textSafe).ok hwf hattach
    have hbound := Schema.bound_of_bind hbind
    obtain ⟨hle, hcheck⟩ := hbound.check_source hf (hoffers hext) hsource
    obtain ⟨checked, hchecked, hsame⟩ := SafeString.check_of_le (le_sup_right.trans hle) hcheck
    have hvalue : vs.valueAt w.index = Entity.encode s :=
      (hsame (by decide)).trans (Except.ok.inj hchecked).symm
    rw [Program.renderChunk, hbound.getScalar_eq (hoffers hext), hvalue]
    dsimp only
    by_cases hwidth : 0 < width.getD o.textWidth
    · rw [if_pos hwidth]
      dsimp only
      rw [hfilled]
    · have hzero : (o.reflow depth width).width = 0 := Nat.eq_zero_of_not_pos hwidth
      rw [Reflow.apply_of_width_eq_zero hzero] at hfilled
      cases hfilled
      rw [if_neg hwidth]

/-- **A text gives an untrusted string back.** If the columns can be counted, the string is
checked and reflowed, and this is what the text writes wherever it stands: when the tree is
compiled, if the string is known, and when it is rendered, if it is bound to a variable. Decoding
what is written gives a text with the words of the string, or the string itself if width 0 leaves
it as it is, and reflowing it once more changes nothing. -/
theorem text_faithful (hindent : o.HasBlankIndent)
    (hfits : ∀ x, (o.reflow depth width).apply (Entity.encode s) ≠ .error x) :
    ∃ checked text, (SafeString.untrusted s).check .textSafe = .ok checked ∧
      (o.reflow depth width).apply checked = .ok text ∧
      (∀ scope, (Node.text (.concrete (.untrusted s)) width).pieces o depth scope =
        .ok [.text text] scope) ∧
      (∀ v scope, scope.schema.WellFormed → ∃ chunk later,
        (Node.text (.deferred v) width).pieces o depth scope = .ok [.step chunk] later ∧
        ∀ f args vs level, later.schema.Extends f → f.WellFormed → f.bind args = .ok vs →
          Binding.source? vs.schema v.name.text args = some (.untrusted s, level) →
          Program.renderChunk chunk vs = .write text) ∧
      Text.words (Entity.decode text) = Text.words s ∧
      (width.getD o.textWidth = 0 → Entity.decode text = s) ∧
      (o.reflow depth width).apply text = .ok text := by
  cases hfilled : (o.reflow depth width).apply (Entity.encode s) with
  | error x => exact absurd hfilled (hfits x)
  | ok text =>
      obtain ⟨hwords, hverbatim⟩ := Reflow.decode_apply (r := o.reflow depth width) hindent hfilled
      exact ⟨Entity.encode s, text, rfl, hfilled, pieces_text_untrusted hfilled,
        fun v _ hwf => pieces_text_deferred hfilled v hwf, hwords, hverbatim,
        Reflow.apply_apply (r := o.reflow depth width) hindent hfilled⟩

end Node

/-- A string with an ampersand and with a word that looks like an entity, on two lines the second of
which is just as wide as it can be. -/
theorem Node.text_faithful_lookalike :
    LayoutOptions.tidy.HasBlankIndent ∧
      (LayoutOptions.tidy.reflow 1 (some 12)).apply (Entity.encode "R&D\t&lt;\n c ") =
        .ok "R&amp;D\n  &amp;lt; c" ∧
      (Node.text (.concrete (.untrusted "R&D\t&lt;\n c ")) (some 12)).pieces .tidy 1 (.newRoot 1) =
        .ok [.text "R&amp;D\n  &amp;lt; c"] (.newRoot 1) ∧
      Text.words (Entity.decode "R&amp;D\n  &amp;lt; c") = ["R&D", "&lt;", "c"] ∧
      (LayoutOptions.tidy.reflow 1 (some 12)).apply "R&amp;D\n  &amp;lt; c" =
        .ok "R&amp;D\n  &amp;lt; c" := by
  have hindent : LayoutOptions.tidy.HasBlankIndent := by decide +kernel
  have hfilled : (LayoutOptions.tidy.reflow 1 (some 12)).apply (Entity.encode "R&D\t&lt;\n c ") =
      .ok "R&amp;D\n  &amp;lt; c" := by
    decide +kernel
  have hsource : Text.words "R&D\t&lt;\n c " = ["R&D", "&lt;", "c"] := by decide +kernel
  obtain ⟨checked, text, hcheck, htext, hknown, -, hwords, -, hagain⟩ :=
    text_faithful hindent (by rw [hfilled]; exact nofun)
  cases hcheck
  obtain rfl := Except.ok.inj (htext.symm.trans hfilled)
  exact ⟨hindent, hfilled, hknown _, hwords.trans hsource, hagain⟩

end TrustedHtml
