/-!
# Blank Characters and Words

Text is broken only at characters with the White_Space property. Everything between two
of them is a word.

## Main definitions

* `Text.isBlank` — the White_Space property.
* `Text.words` — the maximal non-empty runs of characters that are not blank, in order.
-/

namespace TrustedHtml.Text

/-- Characters with the Unicode property White_Space. -/
def isBlank (c : Char) : Bool :=
  let n := c.toNat
  (0x09 ≤ n && n ≤ 0x0D) || n == 0x20 || n == 0x85 || n == 0xA0 || n == 0x1680
    || (0x2000 ≤ n && n ≤ 0x200A) || n == 0x2028 || n == 0x2029 || n == 0x202F
    || n == 0x205F || n == 0x3000

/-- The words of a text, for a text whose first word has already begun with `current`. -/
def wordsFrom (current : List Char) : List Char → List (List Char)
  | [] => if current.isEmpty then [] else [current]
  | c :: rest =>
    if isBlank c then
      if current.isEmpty then wordsFrom [] rest else current :: wordsFrom [] rest
    else wordsFrom (current ++ [c]) rest

/-- The words of a list of characters. -/
def wordsOfList (cs : List Char) : List (List Char) :=
  wordsFrom [] cs

/-- The words of a text. -/
def words (text : String) : List String :=
  (wordsOfList text.toList).map String.ofList

end TrustedHtml.Text
