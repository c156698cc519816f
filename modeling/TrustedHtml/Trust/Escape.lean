import TrustedHtml.Text.Entity
import TrustedHtml.Trust.Error
import TrustedHtml.Url.Reader

/-!
# Escaping Untrusted Strings

An untrusted string can be made fit for text by encoding it, and for a URL attribute by
reading it as a URL with a harmless scheme. For the other contexts no escaping is offered:
there the string has to be supplied trusted.

## Main definitions

* `Escape.allowedSchemes` — the schemes an untrusted URL may have.
* `Escape.text`, `Escape.url` — the two ways of escaping.
* `Escape.forLevel` — escaping for any required level.
-/

namespace TrustedHtml.Escape

variable [UrlReader]

/-- Schemes an untrusted URL may have. -/
def allowedSchemes : List String :=
  ["http", "https", "mailto", "ftp", ""]

/-- Fit for text and for quoted attribute values. -/
def text (s : String) : String :=
  Entity.encode s

/-- Fit for a URL attribute. A URL with a scheme is written in its canonical form, a relative
one as it was given; either is encoded, so that it cannot end the attribute it is placed
in. -/
def url (s : String) : Except TrustError String :=
  match UrlReader.absolute s with
  | .ok u =>
    if allowedSchemes.contains u.scheme then .ok (text u.serialisation)
    else .error (.forbiddenScheme u.scheme)
  | .error .noScheme =>
    match UrlReader.relative s with
    | .ok () => .ok (text s)
    | .error reason => .error (.invalidUrl s reason.message)
  | .error reason => .error (.invalidUrl s reason.message)

/-- Fit for a place that requires the given level. -/
def forLevel (required : TrustLevel) (s : String) : Except TrustError String :=
  match required with
  | .untrusted => .ok s
  | .htmlSafe => .error .htmlEscapeUnsupported
  | .textSafe => .ok (text s)
  | .urlSafe => url s
  | .attributeSafe => .error .attributeEscapeUnsupported
  | .fullyTrusted => .error (.unsatisfied .untrusted .fullyTrusted)

end TrustedHtml.Escape
