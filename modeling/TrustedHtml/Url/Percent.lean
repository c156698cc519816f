/-!
# Percent-Encoding

Characters that cannot stand in a part of a URL are written as the bytes of their UTF-8 form,
each byte as a percent sign and two hexadecimal digits. Which characters these are depends on
the part.

## Main definitions

* `Percent.controls`, `Percent.fragment`, `Percent.path`, `Percent.userinfo`,
  `Percent.query`, `Percent.specialQuery` — the characters to be encoded, by part.
* `Percent.encode` — a text with the characters of a set encoded.
* `Percent.decode` — the bytes of a text in which percent signs are understood.
-/

namespace TrustedHtml.Url.Percent

/-! ### Characters to be encoded -/

/-- Control characters, and everything beyond ASCII. -/
def controls (c : Char) : Bool :=
  c.toNat < 0x20 || 0x7F ≤ c.toNat

/-- In the fragment. -/
def fragment (c : Char) : Bool :=
  controls c || [' ', '"', '<', '>', '\x60'].contains c

/-- In the path. -/
def path (c : Char) : Bool :=
  fragment c || ['#', '?', '\x7b', '\x7d'].contains c

/-- In the user name and the password. -/
def userinfo (c : Char) : Bool :=
  path c || ['/', ':', ';', '=', '@', '[', '\\', ']', '^', '|'].contains c

/-- In the query. -/
def query (c : Char) : Bool :=
  controls c || [' ', '"', '#', '<', '>'].contains c

/-- In the query of a URL of the web. -/
def specialQuery (c : Char) : Bool :=
  query c || c == '\''

/-! ### Encoding and decoding -/

/-- The hexadecimal digit of a value below 16, upper case. -/
def hexDigit (value : Nat) : Char :=
  if value < 10 then Char.ofNat (48 + value) else Char.ofNat (55 + value)

/-- The value of a hexadecimal digit. -/
def hexValue? (c : Char) : Option Nat :=
  if '0' ≤ c && c ≤ '9' then some (c.toNat - 48)
  else if 'a' ≤ c && c ≤ 'f' then some (c.toNat - 87)
  else if 'A' ≤ c && c ≤ 'F' then some (c.toNat - 55)
  else none

/-- How a byte is written. -/
def encodeByte (byte : UInt8) : List Char :=
  ['%', hexDigit (byte.toNat / 16), hexDigit (byte.toNat % 16)]

/-- The text with every character of the set encoded. -/
def encode (set : Char → Bool) (text : List Char) : List Char :=
  text.flatMap fun c => if set c then (String.utf8EncodeChar c).flatMap encodeByte else [c]

/-- The bytes of the text, where a percent sign with two digits is one byte. -/
def decode : List Char → List UInt8
  | [] => []
  | '%' :: a :: b :: rest =>
    match hexValue? a, hexValue? b with
    | some high, some low => UInt8.ofNat (high * 16 + low) :: decode rest
    | _, _ => String.utf8EncodeChar '%' ++ decode (a :: b :: rest)
  | c :: rest => String.utf8EncodeChar c ++ decode rest

end TrustedHtml.Url.Percent
