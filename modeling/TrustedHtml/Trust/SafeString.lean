import TrustedHtml.Trust.Escape

/-!
# Strings with a Trust Level

A string is handled together with the level it was produced at. Only untrusted strings are
ever escaped: every other string either meets a requirement as it is or fails it.

## Main definitions

* `SafeString` — a text and its level.
* `SafeString.satisfies` — whether it meets a requirement without escaping.
* `SafeString.check` — the text for a place with a requirement, escaped if need be.
* `SafeString.escapedText` and its companions — escaping with a fixed answer where it fails.
-/

namespace TrustedHtml

/-- A text tagged with the trust level it was produced at. -/
structure SafeString where
  level : TrustLevel
  text : String
deriving DecidableEq, Repr

namespace SafeString

/-- A literal of the program, trusted everywhere. -/
def constant (text : String) : SafeString := ⟨.fullyTrusted, text⟩

/-- A string from outside. -/
def untrusted (text : String) : SafeString := ⟨.untrusted, text⟩

/-- Whether the string can stand where `required` trust is needed, as it is. An HTML fragment
can stand in a text, but a text cannot stand for an HTML fragment. -/
def satisfies (s : SafeString) (required : TrustLevel) : Bool :=
  match s.level with
  | .fullyTrusted => true
  | .htmlSafe => required == .untrusted || required == .htmlSafe || required == .textSafe
  | level => required == .untrusted || required == level

/-- The literal of the text followed by its level. -/
def describe (s : SafeString) : String :=
  s!"{Text.quoted s.text} ({s.level})"

/-- An untrusted string meets only the empty requirement. -/
theorem satisfies_untrusted_iff (text : String) (required : TrustLevel) :
    (untrusted text).satisfies required = true ↔ required = .untrusted := by
  cases required <;> simp [untrusted, satisfies]

variable [UrlReader]

/-- The text for a place where `required` trust is needed. -/
def check (s : SafeString) (required : TrustLevel) : Except TrustError String :=
  if s.satisfies required then .ok s.text
  else if s.level = .untrusted then Escape.forLevel required s.text
  else .error (.unsatisfied s.level required)

/-! ### Escaping with a fixed answer for what cannot be escaped -/

/-- The encoded text. -/
def escapedText (s : String) : SafeString :=
  ⟨.textSafe, Escape.text s⟩

/-- The URL, or a URL that leads nowhere. -/
def escapedUrl (s : String) : SafeString :=
  ⟨.urlSafe, ((Escape.url s).toOption).getD "about:invalid"⟩

/-- A placeholder, as attribute values are never escaped. -/
def escapedAttribute (s : String) : SafeString :=
  ⟨.attributeSafe, ((Escape.forLevel .attributeSafe s).toOption).getD "!invalid"⟩

/-- A placeholder fragment, as HTML is never escaped. -/
def escapedHtml (s : String) : SafeString :=
  ⟨.htmlSafe, ((Escape.forLevel .htmlSafe s).toOption).getD "<b>invalid html</b>"⟩

end SafeString

end TrustedHtml
