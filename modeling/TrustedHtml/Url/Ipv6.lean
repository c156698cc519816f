import TrustedHtml.Url.Percent

/-!
# IPv6 Addresses

An address is eight pieces of 16 bits, in hexadecimal and separated by colons. One run of
zeros can be left out, and the last two pieces can be written like an IPv4 address.

## Main definitions

* `Ipv6.parse?` — the pieces of an address.
* `Ipv6.text` — an address with its longest run of zeros left out.
-/

namespace TrustedHtml.Url.Ipv6

/-- The pieces read so far, and how many of them stood before the run that was left out. -/
structure Pieces where
  values : List Nat
  gap : Option Nat

namespace Pieces

/-- How many of the eight places are taken; the run left out takes at least one. -/
def taken (p : Pieces) : Nat :=
  p.values.length + if p.gap.isSome then 1 else 0

/-- One more piece. -/
def push (p : Pieces) (value : Nat) : Pieces :=
  { p with values := p.values ++ [value] }

/-- The eight pieces, with zeros for the run left out. -/
def complete? (p : Pieces) : Option (List Nat) :=
  match p.gap with
  | none => if p.values.length = 8 then some p.values else none
  | some gap =>
    some (p.values.take gap ++ List.replicate (8 - p.values.length) 0 ++ p.values.drop gap)

end Pieces

/-- The value of at most three decimal digits without a leading zero, up to 255. -/
def byte? (digits : List Char) : Option Nat :=
  match digits with
  | [] => none
  | '0' :: _ :: _ => none
  | digits =>
    if digits.length ≤ 3 && digits.all Char.isDigit then
      let value := digits.foldl (fun value c => value * 10 + (c.toNat - 48)) 0
      if value ≤ 255 then some value else none
    else none

/-- The parts of a text between dots. -/
def dotted : List Char → List (List Char)
  | [] => [[]]
  | c :: rest =>
    if c == '.' then [] :: dotted rest
    else match dotted rest with
      | part :: others => (c :: part) :: others
      | [] => [[c]]

/-- The two pieces of a text that has the form of an IPv4 address. -/
def embedded? (cs : List Char) : Option (Nat × Nat) := do
  match ← (dotted cs).mapM byte? with
  | [a, b, c, d] => return (a * 256 + b, c * 256 + d)
  | _ => none

/-- The leading hexadecimal digits, at most `limit` of them, with their value and the rest. -/
def hexPiece : Nat → Nat → Nat → List Char → Nat × Nat × List Char
  | 0, count, value, cs => (count, value, cs)
  | _ + 1, count, value, [] => (count, value, [])
  | limit + 1, count, value, c :: cs =>
    match Percent.hexValue? c with
    | some digit => hexPiece limit (count + 1) (value * 16 + digit) cs
    | none => (count, value, c :: cs)

/-- Read the pieces of an address, within as many steps as it has characters. -/
def pieces? : Nat → Pieces → List Char → Option Pieces
  | _, p, [] => some p
  | 0, _, _ => none
  | steps + 1, p, c :: cs =>
    if p.taken = 8 then none
    else if c == ':' then
      if p.gap.isSome then none else pieces? steps { p with gap := some p.values.length } cs
    else
      match hexPiece 4 0 0 (c :: cs) with
      | (_, value, []) => some (p.push value)
      | (0, _, _) => none
      | (_, value, ':' :: rest) => if rest.isEmpty then none else pieces? steps (p.push value) rest
      | (_, _, '.' :: _) =>
        if 6 < p.taken then none
        else do
          let (high, low) ← embedded? (c :: cs)
          return (p.push high).push low
      | _ => none

/-- The pieces of an address. -/
def parse? (cs : List Char) : Option (List Nat) := do
  let p ← match cs with
    | ':' :: ':' :: rest => pieces? rest.length { values := [], gap := some 0 } rest
    | ':' :: _ => none
    | [] => none
    | cs => pieces? cs.length { values := [], gap := none } cs
  p.complete?

/-- The length of the run of zeros at the front. -/
def zeroRun (pieces : List Nat) : Nat :=
  (pieces.takeWhile (· == 0)).length

/-- The position of the first of the longest runs of at least two zeros, with its length. -/
def longestRun (pieces : List Nat) : Option (Nat × Nat) :=
  (List.range pieces.length).foldl (fun best i =>
    let run := zeroRun (pieces.drop i)
    if run < 2 then best
    else match best with
      | some (_, length) => if length < run then some (i, run) else best
      | none => some (i, run)) none

/-- Pieces separated by colons. -/
def joined (pieces : List Nat) : String :=
  ":".intercalate (pieces.map fun piece => String.ofList (Nat.toDigits 16 piece))

/-- The address in brackets. -/
def text (pieces : List Nat) : String :=
  match longestRun pieces with
  | none => s!"[{joined pieces}]"
  | some (start, length) =>
    s!"[{joined (pieces.take start)}::{joined (pieces.drop (start + length))}]"

end TrustedHtml.Url.Ipv6
