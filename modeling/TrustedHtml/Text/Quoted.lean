import TrustedHtml.Text.Unprintable

/-!
# Quoted Literals

Names and values appear in descriptions between double quotes, written so that they can be
read back: the quote and the backslash are escaped, five control characters have short
escapes, and every other character that cannot stand for itself is given by its code point.

## Main definitions

* `Text.quotedChar` — how one character is written.
* `Text.quoted` — the literal of a text.
-/

namespace TrustedHtml.Text

/-- The hexadecimal digits of a number, lower case, without leading zeros. -/
def hexDigits (n : Nat) : List Char :=
  Nat.toDigits 16 n

/-- How a character is written inside a literal. -/
def quotedChar (c : Char) : List Char :=
  match c with
  | '"' => ['\\', '"']
  | '\\' => ['\\', '\\']
  | '\t' => ['\\', 't']
  | '\r' => ['\\', 'r']
  | '\n' => ['\\', 'n']
  | '\x00' => ['\\', '0']
  | c =>
    if isUnprintable c || isExtending c || isFiller c then
      ['\\', 'u', '\x7b'] ++ hexDigits c.toNat ++ ['\x7d']
    else [c]

/-- The literal of a text, with its quotes. -/
def quoted (text : String) : String :=
  String.ofList ('"' :: text.toList.flatMap quotedChar ++ ['"'])

end TrustedHtml.Text
