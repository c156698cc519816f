import TrustedHtml.Url.Domain.Composition
import TrustedHtml.Url.Domain.Joining
import TrustedHtml.Url.Domain.Mapping
import TrustedHtml.Url.Domain.Punycode

/-!
# Labels of Domain Names

The parts of a domain name between its dots are labels. A label with characters beyond ASCII
is written in Punycode behind a mark, and a label that is given in this form has to stand for
one that needs it. The effort of writing and reading Punycode is bounded by the length of the
label.

## Main definitions

* `Domain.isForbidden` — ASCII characters no domain name can contain.
* `Domain.isValidLabel` — labels beyond ASCII that can be written.
* `Domain.readLabel?` — the label that a folded label stands for.
* `Domain.writeLabel` — a label in ASCII.
-/

namespace TrustedHtml.Url.Domain

/-- Control characters, and the characters that have a meaning in a URL. -/
def isForbidden (c : Char) : Bool :=
  c.toNat ≤ 0x20 || c.toNat == 0x7F ||
    ['%', '#', '/', ':', '<', '>', '?', '@', '[', '\\', ']', '^', '|'].contains c

/-- The text is its own ASCII form. -/
def isAscii (label : List Char) : Bool :=
  label.all (·.toNat < 0x80)

/-- The greatest length of a label that is written in Punycode. -/
def longestWritten : Nat := 1000

/-- The greatest length of Punycode that is read. -/
def longestRead : Nat := 2000

/-- Whether a label can be written in Punycode: it needs it, its characters are allowed and
composed, it begins with one that stands on its own, and its joiners make a difference. -/
def isValidLabel (label : List Char) : Bool :=
  !isAscii label
    && label.length ≤ longestWritten
    && label.all (fun c => if c.toNat < 0x80 then !isForbidden c && !c.isUpper else isAllowed c)
    && normalize label == label
    && label.head?.all (!Text.isMark ·)
    && joinersInPlace label

/-- What marks a label in Punycode. -/
def punycodeMark : List Char :=
  ['x', 'n', '-', '-']

/-- The label that is meant by a label whose characters have been folded. -/
def readLabel? (label : List Char) : Option (List Char) :=
  if punycodeMark.isPrefixOf label then
    let form := label.drop punycodeMark.length
    if isAscii form && form.length ≤ longestRead then
      (Punycode.decode? form).filter isValidLabel
    else none
  else if isAscii label || isValidLabel label then some label
  else none

/-- The ASCII form of a label. -/
def writeLabel (label : List Char) : List Char :=
  if isAscii label then label else punycodeMark ++ Punycode.encode label

end TrustedHtml.Url.Domain
