/-!
# Entity Encoding

Five characters are significant in HTML text and in quoted attribute values. They are
written as entities, all others as they are.

## Main definitions

* `Entity.ofChar?` — the entity of a significant character.
* `Entity.encode` — a text with its significant characters replaced.
-/

namespace TrustedHtml.Entity

/-- The entity that stands for a significant character. -/
def ofChar? : Char → Option String
  | '&' => some "&amp;"
  | '<' => some "&lt;"
  | '>' => some "&gt;"
  | '"' => some "&quot;"
  | '\'' => some "&#39;"
  | _ => none

/-- How a character is written. -/
def encodeChar (c : Char) : List Char :=
  match ofChar? c with
  | some entity => entity.toList
  | none => [c]

/-- The text with every significant character replaced by its entity. -/
def encode (text : String) : String :=
  String.ofList (text.toList.flatMap encodeChar)

/-- Encoding is compatible with concatenation. -/
theorem encode_append (s t : String) : encode (s ++ t) = encode s ++ encode t := by
  simp [encode, String.toList_append, List.flatMap_append, String.ofList_append]

end TrustedHtml.Entity
