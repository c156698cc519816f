import TrustedHtml.Url.Domain.Ascii
import TrustedHtml.Url.Ipv4
import TrustedHtml.Url.Ipv6
import TrustedHtml.Url.Reader

/-!
# Hosts

## Main definitions

* `Host` — a name or an address.
* `Host.ofDomain` — the host of a URL of the web, whose names are domain names.
* `Host.ofOpaque` — the host of any other URL, whose names have no structure.
-/

namespace TrustedHtml.Url

/-- The host of a URL. -/
inductive Host where
  | name (text : String)
  | ipv4 (address : Nat)
  | ipv6 (pieces : List Nat)
deriving DecidableEq, Repr

namespace Host

/-- How a host is written. -/
def text : Host → String
  | name text => text
  | ipv4 address => Ipv4.text address
  | ipv6 pieces => Ipv6.text pieces

/-- The address between brackets. -/
def ofBracketed (cs : List Char) : Except Error Host :=
  if cs.getLast? == some ']' then
    match Ipv6.parse? (cs.drop 1).dropLast with
    | some pieces => .ok (ipv6 pieces)
    | none => .error .invalidIpv6
  else .error .invalidIpv6

/-- A domain name, which may be percent-encoded, or an address. -/
def ofDomain (cs : List Char) : Except Error Host :=
  if cs.head? == some '[' then ofBracketed cs
  else
    match (String.fromUTF8? ⟨(Percent.decode cs).toArray⟩).bind Domain.toAscii? with
    | none => .error .invalidDomain
    | some domain =>
      let labels := Domain.labels domain.toList
      if domain.isEmpty then .error .emptyHost
      else if Ipv4.endsInNumber labels then
        match Ipv4.parse? labels with
        | some address => .ok (ipv4 address)
        | none => .error .invalidIpv4
      else .ok (name domain)

/-- Characters that no host can contain. -/
def isForbidden (c : Char) : Bool :=
  ['\x00', '\t', '\n', '\r', ' ', '#', '/', ':', '<', '>', '?', '@', '[', '\\', ']', '^',
    '|'].contains c

/-- A name of any form, or an address. -/
def ofOpaque (cs : List Char) : Except Error Host :=
  if cs.head? == some '[' then ofBracketed cs
  else if cs.any isForbidden then .error .invalidHostCharacter
  else .ok (name (String.ofList (Percent.encode Percent.controls cs)))

end Host

end TrustedHtml.Url
