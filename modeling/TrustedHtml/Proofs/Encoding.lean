import Mathlib.Tactic.Common
import TrustedHtml.Proofs.Markup
import TrustedHtml.Trust.Escape
import TrustedHtml.Url.Web

/-!
# Entity Encoding

Encoding replaces a text character by character, so it can be written piece by piece behind
anything, and what it writes is safe in a page and can be read back. It is safe because no
delimiter of markup is left. It can be read back because an ampersand is written only where an
entity begins: an ampersand of the text is itself encoded, so that a text which looks like an
entity is written as something else.

Escaping a URL succeeds with an encoded text and with nothing else, whatever the reader of URLs
takes for a URL.

## Main definitions

* `Entity.all`: the entities that are written.
* `Entity.write`: a text is encoded behind what has been written.

## Main results

* `Entity.exists_prefix_of_encode`: every ampersand begins an entity.
* `Escape.url_eq_ok_iff`: what is accepted as a URL, and how it is written.
* `Escape.encodes_reversibly`: **encoding is safe and reversible.**
-/

namespace TrustedHtml

namespace Entity

/-- The entities that are written. -/
def all : List String :=
  ["&amp;", "&lt;", "&gt;", "&quot;", "&#39;"]

/-- Encode a text, one character after the other, behind what has been written. -/
def write (written text : String) : String :=
  text.toList.foldl (fun out c => out ++ String.ofList (encodeChar c)) written

/-- Writing only appends, and what it appends is the encoded text. -/
theorem write_eq (written text : String) : write written text = written ++ encode text := by
  have hrun : ∀ (cs : List Char) (out : String),
      cs.foldl (fun out c => out ++ String.ofList (encodeChar c)) out =
        out ++ String.ofList (cs.flatMap encodeChar) := by
    intro cs
    induction cs with
    | nil =>
        intro out
        rw [List.foldl_nil, List.flatMap_nil, String.ofList_nil, String.append_empty]
    | cons c rest ih =>
        intro out
        rw [List.foldl_cons, ih, List.flatMap_cons, String.ofList_append, String.append_assoc]
  exact hrun text.toList written

/-- An entity has one ampersand, at its beginning. -/
theorem exists_eq_cons_of_mem_all {entity : String} (h : entity ∈ all) :
    ∃ tail, entity.toList = '&' :: tail ∧ '&' ∉ tail := by
  simp only [all, List.mem_cons, List.not_mem_nil, or_false] at h
  obtain rfl | rfl | rfl | rfl | rfl := h <;> exact ⟨_, rfl, by decide⟩

/-- A character is written as an entity, or it is no ampersand and written as it is. -/
theorem encodeChar_cases (c : Char) :
    (∃ entity ∈ all, encodeChar c = entity.toList) ∨ encodeChar c = [c] ∧ c ≠ '&' := by
  rw [encodeChar]
  cases hentity : ofChar? c with
  | none =>
      refine .inr ⟨rfl, ?_⟩
      rintro rfl
      cases hentity
  | some entity =>
      refine .inl ⟨entity, ?_, rfl⟩
      rw [ofChar?.eq_def] at hentity
      split at hentity <;> cases hentity <;> decide

/-- **Every ampersand begins an entity**, in characters that are encoded one by one. -/
theorem exists_prefix_of_flatMap {cs before after : List Char}
    (h : cs.flatMap encodeChar = before ++ '&' :: after) :
    ∃ entity ∈ all, entity.toList <+: '&' :: after := by
  induction cs generalizing before with
  | nil =>
      rw [List.flatMap_nil] at h
      exact absurd h.symm (by simp)
  | cons c rest ih =>
      rw [List.flatMap_cons, List.append_eq_append_iff] at h
      obtain ⟨later, -, hrest⟩ | ⟨tail, hc, hafter⟩ := h
      · exact ih hrest
      · cases tail with
        | nil => exact @ih [] hafter.symm
        | cons d tail =>
            -- the ampersand is written for `c`, so it is the first character of an entity
            obtain ⟨rfl, hafter⟩ := List.cons.inj hafter
            obtain ⟨entity, hmem, hentity⟩ | ⟨hplain, hne⟩ := encodeChar_cases c
            · obtain ⟨body, hbody, hnot⟩ := exists_eq_cons_of_mem_all hmem
              rw [hentity, hbody] at hc
              cases before with
              | nil =>
                  obtain rfl : body = tail := (List.cons.inj hc).2
                  refine ⟨entity, hmem, rest.flatMap encodeChar, ?_⟩
                  rw [hbody, hafter, List.cons_append]
              | cons b before =>
                  have hin : '&' ∈ body := by
                    rw [(List.cons.inj hc).2]
                    exact List.mem_append_right _ List.mem_cons_self
                  exact absurd hin hnot
            · have hin : '&' ∈ encodeChar c := by
                rw [hc]
                exact List.mem_append_right _ List.mem_cons_self
              rw [hplain, List.mem_singleton] at hin
              exact absurd hin.symm hne

/-- Every ampersand in an encoded text begins an entity. -/
theorem exists_prefix_of_encode {text : String} {before after : List Char}
    (h : (encode text).toList = before ++ '&' :: after) :
    ∃ entity ∈ all, entity.toList <+: '&' :: after := by
  rw [encode, String.toList_ofList] at h
  exact exists_prefix_of_flatMap h

/-- Texts that are encoded alike are the same. -/
theorem encode_injective : Function.Injective encode :=
  Function.LeftInverse.injective decode_encode

end Entity

namespace Escape

section

variable [UrlReader]

/-- **What is accepted as a URL**, and how it is written: a URL with an allowed scheme in its
canonical form, and a relative one as it is; either is encoded. -/
theorem url_eq_ok_iff {s text : String} : url s = .ok text ↔ ∃ u, text = Entity.encode u ∧
    ((UrlReader.absolute s = .error .noScheme ∧ UrlReader.relative s = .ok () ∧ u = s) ∨
      ∃ parsed, UrlReader.absolute s = .ok parsed ∧ parsed.scheme ∈ allowedSchemes ∧
        u = parsed.serialisation) := by
  rw [url]
  constructor
  · intro h
    split at h
    · rename_i parsed hparsed
      split at h
      · rename_i hscheme
        cases h
        exact ⟨_, rfl, .inr ⟨parsed, hparsed, List.contains_iff_mem.mp hscheme, rfl⟩⟩
      · cases h
    · rename_i hnone
      split at h
      · rename_i hrelative
        cases h
        exact ⟨s, rfl, .inl ⟨hnone, hrelative, rfl⟩⟩
      · cases h
    · cases h
  · rintro ⟨_, rfl, ⟨hnone, hrelative, rfl⟩ | ⟨parsed, hparsed, hscheme, rfl⟩⟩
    · rw [hnone]
      dsimp only
      rw [hrelative]
      rfl
    · rw [hparsed]
      dsimp only
      rw [if_pos (List.contains_iff_mem.mpr hscheme)]
      rfl

/-- **Encoding is safe and reversible.** It only appends, without delimiters and without an
ampersand that does not begin an entity; decoding undoes it, so that it is injective; and it is
compatible with concatenation. Escaping a URL gives an encoded text: that of the string itself, or
that of the canonical form of a URL with an allowed scheme. -/
theorem encodes_reversibly :
    (∀ written text, Entity.write written text = written ++ Entity.encode text) ∧
    (∀ text, Text.delimiters (Entity.encode text) = []) ∧
    (∀ text before after, (Entity.encode text).toList = before ++ '&' :: after →
      ∃ entity ∈ Entity.all, entity.toList <+: '&' :: after) ∧
    (∀ text, Entity.decode (Entity.encode text) = text) ∧
    Function.Injective Entity.encode ∧
    (∀ s t, Entity.encode (s ++ t) = Entity.encode s ++ Entity.encode t) ∧
    ∀ s text, url s = .ok text ↔ ∃ u, text = Entity.encode u ∧
      ((UrlReader.absolute s = .error .noScheme ∧ UrlReader.relative s = .ok () ∧ u = s) ∨
        ∃ parsed, UrlReader.absolute s = .ok parsed ∧ parsed.scheme ∈ allowedSchemes ∧
          u = parsed.serialisation) :=
  ⟨Entity.write_eq, Entity.delimiters_encode, fun _ _ _ => Entity.exists_prefix_of_encode,
    Entity.decode_encode, Entity.encode_injective, Entity.encode_append, fun _ _ => url_eq_ok_iff⟩

end

/-- A text that looks like an entity is encoded once more, and read back as it was; a URL with two
parameters is encoded in its canonical form. -/
theorem encodes_reversibly_lookalike :
    Entity.write "<p>" "&lt;'" = "<p>" ++ "&amp;lt;&#39;" ∧
      (∃ entity ∈ Entity.all, entity.toList <+: '&' :: "#39;".toList) ∧
      Entity.decode "&amp;lt;&#39;" = "&lt;'" ∧
      url "HTTP://a.org?b=1&c=2" = .ok "http://a.org/?b=1&amp;c=2" := by
  obtain ⟨hwrite, -, hentity, hdecode, -, -, hurl⟩ := encodes_reversibly
  have hencode : Entity.encode "&lt;'" = "&amp;lt;&#39;" := by decide +kernel
  have hparsed : UrlReader.absolute "HTTP://a.org?b=1&c=2" =
      .ok ⟨"http", "http://a.org/?b=1&c=2"⟩ := by decide +kernel
  refine ⟨?_, ?_, ?_, ?_⟩
  · rw [hwrite, hencode]
  · refine hentity "&lt;'" "&amp;lt;".toList "#39;".toList ?_
    rw [hencode]
    rfl
  · rw [← hencode, hdecode]
  · rw [hurl]
    exact ⟨_, by decide +kernel, .inr ⟨_, hparsed, by decide, rfl⟩⟩

end Escape

end TrustedHtml
