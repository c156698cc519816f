import TrustedHtml.Json.Reader
import TrustedHtml.Trust.Level

/-!
# Trust Levels in JSON

A level is written as a string with its identifier, or as an object whose only member is
named so and is null.

## Main definitions

* `TrustLevel.identifier` — the identifier of a level.
* `TrustLevel.ofJson?`, `TrustLevel.toJson` — reading and writing.
-/

namespace TrustedHtml.TrustLevel

open Json (Reader)

/-- The identifier of a level. -/
def identifier : TrustLevel → String
  | untrusted => "Untrusted"
  | htmlSafe => "HtmlSafe"
  | textSafe => "TextSafe"
  | urlSafe => "UrlSafe"
  | attributeSafe => "AttributeSafe"
  | fullyTrusted => "FullyTrusted"

/-- The level with an identifier. -/
def ofIdentifier? (name : String) : Option TrustLevel :=
  all.find? (·.identifier == name)

/-- Read a level. -/
def read : Reader TrustLevel := fun cs =>
  match cs with
  | '"' :: _ => do
    let (name, rest) ← Reader.string cs
    return (← ofIdentifier? name, rest)
  | _ => do
    let (found, rest) ← Reader.members Reader.string (fun found name cs => do
      if found.isSome then none
      let (_, rest) ← Reader.word "null" cs
      return (some (← ofIdentifier? name), rest)) (none : Option TrustLevel) cs
    return (← found, rest)

/-- The level that a text describes. -/
def ofJson? (text : String) : Option TrustLevel :=
  Reader.run read text

/-- The text that describes a level. -/
def toJson (level : TrustLevel) : String :=
  "\"" ++ level.identifier ++ "\""

end TrustedHtml.TrustLevel
