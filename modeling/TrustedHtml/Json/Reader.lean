import TrustedHtml.Json.Writer

/-!
# Reading JSON

A document is read strictly: nothing but white space may follow it, there are no comments
and no trailing commas, numbers have no leading zeros and have to fit a double, control
characters in strings have to be escaped, and escapes have to be scalar values. Lists and
objects can be nested 127 deep. Whoever reads documents here can bind them too, so the writer of
their numbers comes with the reader.

## Main definitions

* `Json.Reader` — a reader of the beginning of a text.
* `Json.Reader.string`, `Json.Reader.number`, `Json.Reader.skip` — readers of the parts.
* `Json.Reader.items`, `Json.Reader.members` — lists and objects, folded over a state.
* `Json.parse?` — a whole document.
-/

namespace TrustedHtml.Json

/-- A reader takes what it reads off the front of a text, or fails. -/
abbrev Reader (α : Type) := List Char → Option (α × List Char)

namespace Reader

/-- White space between the parts of a document. -/
def isSpace (c : Char) : Bool :=
  c == ' ' || c == '\n' || c == '\t' || c == '\r'

/-- The text without the white space in front. -/
def trim (cs : List Char) : List Char :=
  cs.dropWhile isSpace

/-- Read the whole text, with white space around it. -/
def run {α : Type} (read : Reader α) (text : String) : Option α := do
  let (a, rest) ← read (trim text.toList)
  if (trim rest).isEmpty then some a else none

/-- A fixed word. -/
def word (expected : String) : Reader Unit := fun cs =>
  if expected.toList.isPrefixOf cs then some ((), cs.drop expected.length) else none

/-! ### Strings -/

/-- The value of a hexadecimal digit. -/
def hexValue? (c : Char) : Option Nat :=
  if '0' ≤ c && c ≤ '9' then some (c.toNat - 48)
  else if 'a' ≤ c && c ≤ 'f' then some (c.toNat - 87)
  else if 'A' ≤ c && c ≤ 'F' then some (c.toNat - 55)
  else none

/-- The four digits of an escape. -/
def hexUnit : Reader Nat
  | a :: b :: c :: d :: rest => do
    let a ← hexValue? a
    let b ← hexValue? b
    let c ← hexValue? c
    let d ← hexValue? d
    return (((a * 16 + b) * 16 + c) * 16 + d, rest)
  | _ => none

/-- What an escape of one letter stands for. -/
def escaped? : Char → Option Char
  | '"' => some '"'
  | '\\' => some '\\'
  | '/' => some '/'
  | 'b' => some '\x08'
  | 'f' => some '\x0c'
  | 'n' => some '\n'
  | 'r' => some '\r'
  | 't' => some '\t'
  | _ => none

/-- The character behind the mark of a numeric escape: one unit, or a pair of surrogates. -/
def numericEscape (cs : List Char) : Option (Char × List Char) := do
  let (unit, rest) ← hexUnit cs
  if unit < 0xD800 || 0xDFFF < unit then return (Char.ofNat unit, rest)
  else if unit < 0xDC00 then
    match rest with
    | '\\' :: 'u' :: rest =>
      let (low, rest) ← hexUnit rest
      if 0xDC00 ≤ low && low ≤ 0xDFFF then
        return (Char.ofNat (0x10000 + (unit - 0xD800) * 0x400 + (low - 0xDC00)), rest)
      else none
    | _ => none
  else none

/-- The characters of a string up to its closing quote, in at most `steps` steps; `found` holds
those before, in reverse. -/
def stringBody (steps : Nat) (found : List Char) (cs : List Char) :
    Option (String × List Char) :=
  match steps, cs with
  | 0, _ => none
  | _, [] => none
  | _, '"' :: rest => some (String.ofList found.reverse, rest)
  | steps + 1, '\\' :: 'u' :: rest =>
    match numericEscape rest with
    | some (c, rest) => stringBody steps (c :: found) rest
    | none => none
  | steps + 1, '\\' :: letter :: rest =>
    match escaped? letter with
    | some c => stringBody steps (c :: found) rest
    | none => none
  | steps + 1, c :: rest =>
    if c == '\\' || c.toNat < 0x20 then none else stringBody steps (c :: found) rest

/-- A string. -/
def string : Reader String
  | '"' :: rest => stringBody (rest.length + 1) [] rest
  | _ => none

/-- Pass over a string up to its closing quote. Of numeric escapes only the form matters. -/
def skipStringBody (steps : Nat) (cs : List Char) : Option (List Char) :=
  match steps, cs with
  | 0, _ => none
  | _, [] => none
  | _, '"' :: rest => some rest
  | steps + 1, '\\' :: 'u' :: rest =>
    match hexUnit rest with
    | some (_, rest) => skipStringBody steps rest
    | none => none
  | steps + 1, '\\' :: letter :: rest =>
    if (escaped? letter).isSome then skipStringBody steps rest else none
  | steps + 1, c :: rest =>
    if c == '\\' || c.toNat < 0x20 then none else skipStringBody steps rest

/-- Pass over a string. -/
def skipString : Reader Unit
  | '"' :: rest => (skipStringBody (rest.length + 1) rest).map fun rest => ((), rest)
  | _ => none

/-! ### Numbers -/

/-- The parts of a number as it is written. -/
structure NumberText where
  isNegative : Bool
  whole : List Char
  fraction : Option (List Char)
  exponent : Option Int

/-- The digits in front. -/
def digits (cs : List Char) : List Char × List Char :=
  (cs.takeWhile Char.isDigit, cs.dropWhile Char.isDigit)

/-- The value of digits. -/
def value (digits : List Char) : Nat :=
  digits.foldl (fun value c => value * 10 + (c.toNat - 48)) 0

/-- Whether there is a minus sign in front. -/
def sign (cs : List Char) : Bool × List Char :=
  match cs with
  | '-' :: rest => (true, rest)
  | cs => (false, cs)

/-- The decimal places behind a point, if there is one. -/
def fraction (cs : List Char) : Option (Option (List Char) × List Char) :=
  match cs with
  | '.' :: rest =>
    match digits rest with
    | ([], _) => none
    | (found, rest) => some (some found, rest)
  | cs => some (none, cs)

/-- An exponent with its mark, if there is one. -/
def exponent (cs : List Char) : Option (Option Int × List Char) :=
  match cs with
  | mark :: rest =>
    if mark == 'e' || mark == 'E' then
      let (isNegative, rest) :=
        match rest with
        | '+' :: rest => (false, rest)
        | '-' :: rest => (true, rest)
        | rest => (false, rest)
      match digits rest with
      | ([], _) => none
      | (found, rest) =>
        some (some (if isNegative then -(value found : Int) else value found), rest)
    else some (none, cs)
  | [] => some (none, [])

/-- The parts of a number. -/
def numberText (cs : List Char) : Option (NumberText × List Char) := do
  let (isNegative, cs) := sign cs
  let (whole, cs) := digits cs
  if whole.isEmpty || (whole.length ≠ 1 && whole.head? == some '0') then none
  let (fraction, cs) ← fraction cs
  let (exponent, cs) ← exponent cs
  return (⟨isNegative, whole, fraction, exponent⟩, cs)

/-- Digits are taken into the significand as long as it stays below this bound. -/
def significandBound : Nat := UInt64.size

/-- Take digits into the significand until one does not fit; how many were taken. -/
def takeDigits (significand taken : Nat) : List Char → Nat × Nat
  | [] => (significand, taken)
  | c :: rest =>
    let next := significand * 10 + (c.toNat - 48)
    if next < significandBound then takeDigits next (taken + 1) rest else (significand, taken)

/-- The largest power of ten that a double can be. -/
def greatestPower : Nat := 308

/-- The double nearest to a power of ten. -/
def powerOfTen (power : Nat) : Option Binary64 :=
  Binary64.ofNat (Nat.pow 10 power)

/-- A double divided by a power of ten, in at most `steps` steps, each of them a division by at
most the largest power there is. -/
def divideByPower (steps : Nat) (x : Binary64) (power : Nat) : Option Binary64 := do
  match steps with
  | 0 => return x
  | steps + 1 =>
    if power ≤ greatestPower then x.div (← powerOfTen power)
    else if x.isZero then return x
    else
      let y ← x.div (← powerOfTen greatestPower)
      divideByPower steps y (power - greatestPower)

/-- The double that a significand and a power of ten are read as: the rounded significand,
multiplied or divided by the power with one more rounding. -/
def scaled (significand : Nat) (exponent : Int) : Option Binary64 := do
  let x ← Binary64.ofNat significand
  if exponent < 0 then divideByPower (exponent.natAbs / greatestPower + 1) x exponent.natAbs
  else if exponent ≤ greatestPower then x.mul (← powerOfTen exponent.toNat)
  else if x.isZero then return x
  else none

/-- The number that is written, if it is in the range of a double. -/
def NumberText.number? (t : NumberText) : Option Number :=
  let (significand, taken) := takeDigits 0 0 t.whole
  let dropped := t.whole.length - taken
  if t.fraction.isNone && t.exponent.isNone && dropped == 0
      && (!t.isNegative || (0 < significand && significand ≤ 0x8000000000000000)) then
    some (if t.isNegative then .negative significand else .natural significand)
  else
    let (significand, taken) := takeDigits significand 0 (t.fraction.getD [])
    (scaled significand ((dropped : Int) - taken + t.exponent.getD 0)).map (.double t.isNegative)

/-- A number. -/
def number (cs : List Char) : Option (Number × List Char) := do
  let (t, rest) ← numberText cs
  return (← t.number?, rest)

/-! ### Lists and objects -/

/-- What follows an item of a list or an object: a comma and another item (`true`), or the end. -/
def afterItem (close : Char) (cs : List Char) : Option (Bool × List Char) :=
  match trim cs with
  | ',' :: rest => some (true, trim rest)
  | c :: rest => if c == close then some (false, rest) else none
  | [] => none

/-- The items up to a closing sign, in at most `steps` steps, each of them read with the state
that the items before it have left. -/
def itemsFrom {σ : Type} (close : Char) (read : σ → Reader σ) (steps : Nat) (state : σ)
    (cs : List Char) : Option (σ × List Char) :=
  match steps with
  | 0 => none
  | steps + 1 => do
    let (state, rest) ← read state cs
    let (more, rest) ← afterItem close rest
    if more then itemsFrom close read steps state rest else some (state, rest)

/-- The items between an opening and a closing sign. -/
def items {σ : Type} (opening close : Char) (read : σ → Reader σ) (state : σ) : Reader σ
  | c :: rest =>
    if c == opening then
      match trim rest with
      | d :: others =>
        if d == close then some (state, others)
        else itemsFrom close read (others.length + 1) state (d :: others)
      | [] => none
    else none
  | [] => none

/-- A list, its items read one after the other. -/
def list {σ : Type} (read : σ → Reader σ) (state : σ) : Reader σ :=
  items '[' ']' read state

/-- An object, its members read one after the other. The name of a member is read by `name`,
its value by the reader for that name. -/
def members {σ ν : Type} (name : Reader ν) (read : σ → ν → Reader σ) (state : σ) : Reader σ :=
  items '\x7b' '\x7d' (fun state cs => do
    let (found, rest) ← name cs
    match trim rest with
    | ':' :: rest => read state found (trim rest)
    | _ => none) state

/-- Pass over a value, in at most `steps` nested steps. Only its form matters: numbers may be
of any size, and nesting is not limited. -/
def skipWithin : Nat → Reader Unit
  | 0, _ => none
  | steps + 1, cs =>
    match cs with
    | '"' :: _ => skipString cs
    | '[' :: _ => list (fun _ => skipWithin steps) () cs
    | '\x7b' :: _ => members skipString (fun _ _ => skipWithin steps) () cs
    | 'n' :: _ => word "null" cs
    | 't' :: _ => word "true" cs
    | 'f' :: _ => word "false" cs
    | _ => (numberText cs).map fun (_, rest) => ((), rest)

/-- Pass over a value. -/
def skip (cs : List Char) : Option (Unit × List Char) :=
  skipWithin (cs.length + 1) cs

/-- A truth value. -/
def bool (cs : List Char) : Option (Bool × List Char) :=
  match word "true" cs with
  | some (_, rest) => some (true, rest)
  | none => (word "false" cs).map fun (_, rest) => (false, rest)

/-- A value in which lists and objects are nested at most `depth` deep. -/
def valueWithin : Nat → Reader Json
  | depth, cs =>
    match cs, depth with
    | '"' :: _, _ => (string cs).map fun (s, rest) => (.string s, rest)
    | '[' :: _, depth + 1 =>
      (list (fun found cs => (valueWithin depth cs).map fun (v, rest) => (v :: found, rest))
        [] cs).map fun (found, rest) => (.array found.reverse, rest)
    | '\x7b' :: _, depth + 1 =>
      (members string (fun found name cs =>
        (valueWithin depth cs).map fun (v, rest) => (insertMember name v found, rest)) [] cs).map
          fun (found, rest) => (.object found, rest)
    | 'n' :: _, _ => (word "null" cs).map fun (_, rest) => (.null, rest)
    | 't' :: _, _ => (bool cs).map fun (b, rest) => (.bool b, rest)
    | 'f' :: _, _ => (bool cs).map fun (b, rest) => (.bool b, rest)
    | _, _ => (number cs).map fun (n, rest) => (.number n, rest)

end Reader

/-- How deep lists and objects can be nested. -/
def nestingLimit : Nat := 127

/-- The document that a text is. -/
def parse? (text : String) : Option Json :=
  Reader.run (Reader.valueWithin nestingLimit) text

end TrustedHtml.Json
