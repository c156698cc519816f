import TrustedHtml.Url.Percent

/-!
# IPv4 Addresses

The host of a URL is an address if its last label is a number. The labels of an address are
decimal, octal (after `0`) or hexadecimal (after `0x`) numbers, at most four of them. All but
the last are one byte each; the last one fills the bytes that are left.

## Main definitions

* `Ipv4.endsInNumber` — whether a host is meant to be an address.
* `Ipv4.parse?` — the 32-bit value of an address.
* `Ipv4.text` — an address in dotted decimal form.
-/

namespace TrustedHtml.Url.Ipv4

/-- The value of digits in a base, if all of them are digits of it. -/
def digitsValue? (base : Nat) (digits : List Char) : Option Nat :=
  digits.foldlM (fun value c => do
    let digit ← Percent.hexValue? c
    if digit < base then some (value * base + digit) else none) 0

/-- The value of a label, which may be of any size. -/
def number? (label : List Char) : Option Nat :=
  match label with
  | [] => none
  | '0' :: 'x' :: digits => digitsValue? 16 digits
  | '0' :: 'X' :: digits => digitsValue? 16 digits
  | '0' :: digits => digitsValue? 8 digits
  | digits => digitsValue? 10 digits

/-- The labels of a host, without the empty one behind a final dot. -/
def trimmedLabels (labels : List (List Char)) : List (List Char) :=
  if labels.getLast? == some [] then labels.dropLast else labels

/-- Whether the last label consists of digits or is a number of an address. -/
def endsInNumber (labels : List (List Char)) : Bool :=
  match (trimmedLabels labels).getLast? with
  | none => false
  | some label => (!label.isEmpty && label.all Char.isDigit) || (number? label).isSome

/-- The value of an address with the given labels. -/
def parse? (labels : List (List Char)) : Option Nat := do
  let labels := trimmedLabels labels
  if 4 < labels.length then none
  let numbers ← labels.mapM number?
  let last ← numbers.getLast?
  let bytes := numbers.dropLast
  if bytes.any (255 < ·) || Nat.pow 256 (4 - bytes.length) ≤ last then none
  let high := bytes.foldl (fun value byte => value * 256 + byte) 0
  return high * Nat.pow 256 (4 - bytes.length) + last

/-- The four bytes in decimal, separated by dots. -/
def text (address : Nat) : String :=
  let byte (i : Nat) := toString (address / Nat.pow 256 i % 256)
  s!"{byte 3}.{byte 2}.{byte 1}.{byte 0}"

end TrustedHtml.Url.Ipv4
