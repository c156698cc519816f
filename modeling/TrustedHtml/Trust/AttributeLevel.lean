import TrustedHtml.Trust.Level

/-!
# Requirements of Attributes

The attributes of HTML are known by name, with the level a value must have to be placed into
them. A name that is not known requires full trust, except that the attributes whose names
begin with `data-` are inert and require nothing.

## Main definitions

* `Attribute.known` — the requirements of the known attributes.
* `TrustLevel.ofAttribute` — the requirement of any attribute.
-/

namespace TrustedHtml

namespace Attribute

/-- Attributes whose values are URLs. -/
def urlValued : List String :=
  ["action", "archive", "background", "cite", "classid", "codebase", "data", "formaction",
    "href", "icon", "longdesc", "manifest", "poster", "profile", "src", "usemap", "xmlns"]

/-- Attributes whose values are harmless once they cannot end the attribute. -/
def plainValued : List String :=
  ["accept", "alt", "autocomplete", "autofocus", "autoplay", "border", "checked", "class",
    "cols", "colspan", "contenteditable", "contextmenu", "controls", "coords", "datetime",
    "default", "dir", "dirname", "disabled", "draggable", "dropzone", "for", "formtarget",
    "headers", "height", "hidden", "high", "hreflang", "id", "ismap", "kind", "label", "lang",
    "list", "loop", "low", "max", "maxlength", "media", "mediagroup", "min", "multiple", "name",
    "open", "optimum", "placeholder", "preload", "pubdate", "radiogroup", "readonly", "required",
    "reversed", "rows", "rowspan", "spellcheck", "scope", "scoped", "seamless", "selected",
    "shape", "size", "sizes", "span", "srclang", "start", "step", "tabindex", "target", "title",
    "width", "wrap"]

/-- Attributes whose values are HTML. -/
def htmlValued : List String :=
  ["srcdoc"]

/-- Known attributes whose values decide how other content is understood. -/
def trustedValued : List String :=
  ["accept-charset", "async", "challenge", "charset", "content", "crossorigin", "defer",
    "enctype", "form", "formenctype", "formmethod", "formnovalidate", "http-equiv", "keytype",
    "language", "method", "novalidate", "pattern", "rel", "sandbox", "srcset", "style", "type",
    "value"]

/-- The requirements of the known attributes. -/
def known (name : String) : Option TrustLevel :=
  if urlValued.contains name then some .urlSafe
  else if plainValued.contains name then some .attributeSafe
  else if htmlValued.contains name then some .htmlSafe
  else if trustedValued.contains name then some .fullyTrusted
  else none

end Attribute

/-- The level a value must have to be placed into the attribute `name`. -/
def TrustLevel.ofAttribute (name : String) : TrustLevel :=
  match Attribute.known name with
  | some level => level
  | none => if name.startsWith "data-" then .untrusted else .fullyTrusted

end TrustedHtml
