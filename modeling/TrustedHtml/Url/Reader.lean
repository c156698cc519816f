/-!
# Reading URLs

Escaping for a URL context needs to know of a text whether it is a URL, under which scheme,
and how it is written canonically. This module says only what a reader of URLs provides, so
that everything built on it holds for every such reader; a reader for the URLs of the web is
in `TrustedHtml.Url.Web`.

## Main definitions

* `Url.Error` — why a text is not a URL.
* `Url.Absolute` — the scheme and the canonical form of a URL with a scheme.
* `UrlReader` — what a reader provides.
-/

namespace TrustedHtml

namespace Url

/-- Why a text is not a URL. -/
inductive Error where
  | emptyHost
  | invalidDomain
  | invalidPort
  | invalidIpv4
  | invalidIpv6
  | invalidHostCharacter
  /-- The text has no scheme, so it can only be read relative to another URL. -/
  | noScheme
deriving DecidableEq, Repr

/-- The text under which an error is reported. -/
def Error.message : Error → String
  | .emptyHost => "empty host"
  | .invalidDomain => "invalid international domain name"
  | .invalidPort => "invalid port number"
  | .invalidIpv4 => "invalid IPv4 address"
  | .invalidIpv6 => "invalid IPv6 address"
  | .invalidHostCharacter => "invalid domain character"
  | .noScheme => "relative URL without a base"

/-- A URL that has a scheme of its own. -/
structure Absolute where
  /-- The scheme, in lower case and without its colon. -/
  scheme : String
  /-- The whole URL in its canonical form. -/
  serialisation : String
deriving DecidableEq, Repr

end Url

/-- A reader of URLs. -/
class UrlReader where
  /-- Read a text that has a scheme; `noScheme` is the error if it has none. -/
  absolute : String → Except Url.Error Url.Absolute
  /-- Read a text without a scheme, relative to a page on the web. Only the success of it
  matters. -/
  relative : String → Except Url.Error Unit

end TrustedHtml
