import TrustedHtml.Text.Quoted
import TrustedHtml.Trust.Level

/-!
# Errors of Trust

## Main definitions

* `TrustError` — why a string cannot be provided at a required level.
* `TrustError.message` — the text under which it is reported.
-/

namespace TrustedHtml

/-- A string could not be provided at the level a place requires. -/
inductive TrustError where
  /-- A string of one level where another is required. -/
  | unsatisfied (value required : TrustLevel)
  /-- Escaping into HTML would need a sanitizer. -/
  | htmlEscapeUnsupported
  /-- No escaping is right for every attribute. -/
  | attributeEscapeUnsupported
  /-- A text that is no URL, with the reason. -/
  | invalidUrl (text reason : String)
  /-- A URL whose scheme is not on the list. -/
  | forbiddenScheme (scheme : String)
  /-- A name that no level has. -/
  | unknownLevel (name : String)
deriving DecidableEq, Repr

/-- The text under which an error is reported. -/
def TrustError.message : TrustError → String
  | .unsatisfied value required =>
    s!"{value} string cannot provide trust level {required}"
  | .htmlEscapeUnsupported =>
    "HTML fragments must currently be supplied trusted, they are never escaped"
  | .attributeEscapeUnsupported =>
    "attribute values must currently be supplied trusted, they are never escaped"
  | .invalidUrl text reason => s!"invalid URL {Text.quoted text}: {reason}"
  | .forbiddenScheme scheme => s!"URL scheme not allowed: {Text.quoted scheme}"
  | .unknownLevel name => s!"unknown trust level {Text.quoted name}"

/-- The level with the given name. -/
def TrustLevel.ofName (name : String) : Except TrustError TrustLevel :=
  match TrustLevel.ofName? name with
  | some level => .ok level
  | none => .error (.unknownLevel name)

end TrustedHtml
