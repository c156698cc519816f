import TrustedHtml.Text.Reflow
import TrustedHtml.Trust.SafeString

/-!
# Delimiters of Markup

Tags and quoted attribute values are delimited by four characters. A text without them can
neither open a tag nor leave the place it was written to. This module follows these
characters through the two things that happen to a text on its way to a page.

Encoding removes all of them, so an untrusted string has none left once it has been checked
for a place that requires anything. Reflowing a text removes and adds white space only, and
adds the indentation; characters that are neither blank nor part of the indentation come
through in their order, and this is stated for any selection of such characters.

## Main results

* `Reflow.filter_apply`: **reflowing keeps what is not white space**.
* `Entity.delimiters_encode`: an encoded text has no delimiters.
* `SafeString.delimiters_check`: **an untrusted string that passes a check has none**.
-/

namespace TrustedHtml

namespace Text

/-- The characters that delimit tags and attribute values. -/
def isDelimiter (c : Char) : Bool :=
  c == '<' || c == '>' || c == '"' || c == '\''

/-- The delimiters in a text, in their order. -/
def delimiters (text : String) : List Char :=
  text.toList.filter isDelimiter

/-- The delimiters of two texts one after the other. -/
theorem delimiters_append (s t : String) : delimiters (s ++ t) = delimiters s ++ delimiters t := by
  rw [delimiters, String.toList_append, List.filter_append, delimiters, delimiters]

/-- The empty text has no delimiters. -/
theorem delimiters_empty : delimiters "" = [] := rfl

/-- In a text without delimiters no character is one. -/
theorem not_isDelimiter_of_mem {text : String} (h : delimiters text = []) {c : Char}
    (hc : c ∈ text.toList) : isDelimiter c = false := by
  rw [Bool.eq_false_iff]
  exact List.filter_eq_nil_iff.mp h c hc

/-- White space delimits nothing. -/
theorem not_isDelimiter_of_isBlank {c : Char} (h : isBlank c = true) : isDelimiter c = false := by
  rw [Bool.eq_false_iff]
  intro hd
  simp only [isDelimiter, Bool.or_eq_true, beq_iff_eq] at hd
  rcases hd with ((rfl | rfl) | rfl) | rfl <;> exact absurd h (by decide)

end Text

/-! ### Reflowing -/

namespace Text

variable {p : Char → Bool}

/-- The words of a text hold all of its characters but white space, in order. -/
theorem filter_flatten_wordsFrom (hp : ∀ c, isBlank c = true → p c = false)
    (cs current : List Char) :
    (wordsFrom current cs).flatten.filter p = (current ++ cs).filter p := by
  induction cs generalizing current with
  | nil =>
      rw [wordsFrom]
      by_cases h : current.isEmpty = true
      · rw [if_pos h, List.isEmpty_iff.mp h]
        rfl
      · rw [if_neg h, List.flatten_singleton, List.append_nil]
  | cons c rest ih =>
      rw [wordsFrom]
      by_cases hc : isBlank c = true
      · have hdrop : (current ++ c :: rest).filter p = current.filter p ++ rest.filter p := by
          rw [List.filter_append, List.filter_cons_of_neg (by rw [hp c hc]; decide)]
        rw [if_pos hc, hdrop]
        by_cases h : current.isEmpty = true
        · rw [if_pos h, ih, List.isEmpty_iff.mp h]
          rfl
        · rw [if_neg h, List.flatten_cons, List.filter_append, ih]
          rfl
      · rw [if_neg hc, ih, List.append_assoc]
        rfl

/-- The words of a text hold all of its characters but white space, in order. -/
theorem filter_flatMap_words (hp : ∀ c, isBlank c = true → p c = false) (text : String) :
    ((words text).flatMap String.toList).filter p = text.toList.filter p := by
  have h : (words text).flatMap String.toList = (wordsOfList text.toList).flatten := by
    rw [words, List.flatMap_map, List.flatMap_def]
    simp
  rw [h, wordsOfList, filter_flatten_wordsFrom hp, List.nil_append]

/-- What holds of no character of a unit holds of no character of its copies. -/
theorem filter_copies {unit : String} (hunit : ∀ c ∈ unit.toList, p c = false) (n : Nat) :
    (copies n unit).toList.filter p = [] := by
  rw [copies]
  split
  · rfl
  · rw [String.toList_join, List.filter_eq_nil_iff]
    intro c hc
    obtain ⟨_, hmem, hc⟩ := List.mem_flatMap.mp hc
    rw [List.eq_of_mem_replicate hmem] at hc
    rw [hunit c hc]
    decide

end Text

namespace Reflow

variable {p : Char → Bool} {r : Reflow} {text written filled : String}

/-- A line break has no characters but white space and the indentation. -/
theorem filter_lineBreak (hp : ∀ c, Text.isBlank c = true → p c = false)
    (hindent : ∀ c ∈ r.indent.toList, p c = false) : r.lineBreak.toList.filter p = [] := by
  have hnewline : ("\n" : String).toList.filter p = [] := by
    rw [show ("\n" : String).toList = ['\n'] from rfl,
      List.filter_cons_of_neg (by rw [hp '\n' (by decide)]; decide)]
    rfl
  rw [lineBreak, String.toList_append, List.filter_append, hnewline,
    Text.filter_copies hindent, List.append_nil]

/-- Placing a word adds the word, and otherwise white space and indentation. -/
theorem filter_place (hp : ∀ c, Text.isBlank c = true → p c = false)
    (hindent : ∀ c ∈ r.indent.toList, p c = false) {margin : Nat} {f g : Filling}
    {word : String} (h : f.place r margin word = .ok g) :
    g.written.toList.filter p = f.written.toList.filter p ++ word.toList.filter p := by
  have hspace : (" " : String).toList.filter p = [] := by
    rw [show (" " : String).toList = [' '] from rfl,
      List.filter_cons_of_neg (by rw [hp ' ' (by decide)]; decide)]
    rfl
  simp only [Filling.place, bind, Except.bind, pure, Except.pure] at h
  split at h
  · split at h
    · cases h
    · split at h
      · cases h
      · split at h
        · split at h
          · cases h
          · cases h
            simp only [String.toList_append, List.filter_append, filter_lineBreak hp hindent,
              List.append_nil]
        · cases h
          simp only [String.toList_append, List.filter_append, hspace, List.append_nil]
  · split at h
    · cases h
    · cases h
      simp only [String.toList_append, List.filter_append]

/-- Placing words adds the words, and otherwise white space and indentation. -/
theorem filter_foldlM_place (hp : ∀ c, Text.isBlank c = true → p c = false)
    (hindent : ∀ c ∈ r.indent.toList, p c = false) {margin : Nat} {ws : List String}
    {f g : Filling} (h : ws.foldlM (Filling.place r margin) f = .ok g) :
    g.written.toList.filter p =
      f.written.toList.filter p ++ (ws.flatMap String.toList).filter p := by
  induction ws generalizing f with
  | nil =>
      cases h
      rw [List.flatMap_nil, List.filter_nil, List.append_nil]
  | cons word rest ih =>
      simp only [List.foldlM_cons, bind, Except.bind] at h
      split at h
      · cases h
      · rename_i placed hplaced
        rw [ih h, filter_place hp hindent hplaced, List.flatMap_cons, List.filter_append,
          List.append_assoc]

/-- **Reflowing keeps what is not white space.** Characters that are neither blank nor part
of the indentation are those of the text, in order. -/
theorem filter_apply (hp : ∀ c, Text.isBlank c = true → p c = false)
    (hindent : ∀ c ∈ r.indent.toList, p c = false) (h : r.apply text = .ok filled) :
    filled.toList.filter p = text.toList.filter p := by
  simp only [apply, append, bind, Except.bind, pure, Except.pure] at h
  split at h
  · cases h
    rw [String.empty_append]
  · split at h
    · cases h
    · split at h
      · cases h
      · rename_i placed hplaced
        cases h
        rw [filter_foldlM_place hp hindent hplaced, Text.filter_flatMap_words hp]
        rfl

/-- Reflowing keeps the delimiters of a text if the indentation has none. -/
theorem delimiters_apply (hindent : Text.delimiters r.indent = [])
    (h : r.apply text = .ok filled) : Text.delimiters filled = Text.delimiters text :=
  filter_apply (fun _ hc => Text.not_isDelimiter_of_isBlank hc)
    (fun _ hc => Text.not_isDelimiter_of_mem hindent hc) h

/-- The delimiters of a reflowed text are those of the text and of the indentation. -/
theorem mem_delimiters_apply (h : r.apply text = .ok filled) {c : Char}
    (hc : c ∈ Text.delimiters filled) : c ∈ Text.delimiters text ∨ c ∈ r.indent.toList := by
  by_cases hin : c ∈ r.indent.toList
  · exact .inr hin
  · left
    -- the selection of the delimiters that are not in the indentation
    have hkept := filter_apply (p := fun c => Text.isDelimiter c && !r.indent.toList.contains c)
      (fun _ hb => by rw [Text.not_isDelimiter_of_isBlank hb]; rfl)
      (fun _ hi => by rw [List.contains_iff_mem.mpr hi]; simp) h
    obtain ⟨hmem, hd⟩ := List.mem_filter.mp hc
    have hsel : c ∈ text.toList.filter fun c =>
        Text.isDelimiter c && !r.indent.toList.contains c := by
      rw [← hkept, List.mem_filter]
      exact ⟨hmem, by simp [hd, hin]⟩
    obtain ⟨hmem, hd⟩ := List.mem_filter.mp hsel
    exact List.mem_filter.mpr ⟨hmem, (Bool.and_eq_true_iff.mp hd).1⟩

/-- The indentation is written as it is. -/
example : (⟨3, 1, ">"⟩ : Reflow).apply "a b" = .ok "a\n>b" := by rfl

end Reflow

/-! ### Encoding -/

namespace Entity

/-- An entity has no delimiters. -/
theorem delimiters_entity {c : Char} {entity : String} (h : ofChar? c = some entity) :
    Text.delimiters entity = [] := by
  rw [ofChar?.eq_def] at h
  split at h <;> cases h <;> decide

/-- A character without an entity is no delimiter. -/
theorem not_isDelimiter_of_ofChar?_eq_none {c : Char} (h : ofChar? c = none) :
    Text.isDelimiter c = false := by
  rw [Bool.eq_false_iff]
  intro hd
  simp only [Text.isDelimiter, Bool.or_eq_true, beq_iff_eq] at hd
  rcases hd with ((rfl | rfl) | rfl) | rfl <;> cases h

/-- No character is written with a delimiter. -/
theorem not_isDelimiter_of_mem_encodeChar {c d : Char} (h : d ∈ encodeChar c) :
    Text.isDelimiter d = false := by
  rw [encodeChar] at h
  split at h
  · rename_i entity hentity
    exact Text.not_isDelimiter_of_mem (delimiters_entity hentity) h
  · rename_i hnone
    rw [List.mem_singleton.mp h]
    exact not_isDelimiter_of_ofChar?_eq_none hnone

/-- An encoded text has no delimiters. -/
theorem delimiters_encode (text : String) : Text.delimiters (encode text) = [] := by
  rw [Text.delimiters, encode, String.toList_ofList, List.filter_eq_nil_iff]
  intro d hd
  obtain ⟨c, -, hd⟩ := List.mem_flatMap.mp hd
  rw [not_isDelimiter_of_mem_encodeChar hd]
  decide

end Entity

namespace Escape

variable [UrlReader] {s text : String}

/-- A URL that is accepted has no delimiters, whatever the reader of URLs makes of it. -/
theorem delimiters_url (h : url s = .ok text) : Text.delimiters text = [] := by
  rw [url] at h
  split at h
  · split at h
    · cases h
      exact Entity.delimiters_encode _
    · cases h
  · split at h
    · cases h
      exact Entity.delimiters_encode _
    · cases h
  · cases h

/-- What escaping gives for a place that requires anything has no delimiters. -/
theorem delimiters_forLevel {required : TrustLevel} (hne : required ≠ .untrusted)
    (h : forLevel required s = .ok text) : Text.delimiters text = [] := by
  cases required with
  | untrusted => exact absurd rfl hne
  | textSafe =>
      cases h
      exact Entity.delimiters_encode s
  | urlSafe => exact delimiters_url h
  | htmlSafe => cases h
  | attributeSafe => cases h
  | fullyTrusted => cases h

end Escape

/-- **An untrusted string that passes a check has no delimiters left**, if anything was
required of it. -/
theorem SafeString.delimiters_check [UrlReader] {s : SafeString} {required : TrustLevel}
    {text : String} (hlevel : s.level = .untrusted) (hne : required ≠ .untrusted)
    (h : s.check required = .ok text) : Text.delimiters text = [] := by
  obtain ⟨level, content⟩ := s
  obtain rfl : level = .untrusted := hlevel
  have hsat : ¬(⟨.untrusted, content⟩ : SafeString).satisfies required = true :=
    fun hs => hne ((satisfies_untrusted_iff content required).mp hs)
  rw [check, if_neg hsat, if_pos rfl] at h
  exact Escape.delimiters_forLevel hne h

end TrustedHtml
