import TrustedHtml.Node.Basic

/-!
# Known Elements

The elements of HTML differ in how they are laid out and in whether they have a closing tag.
Elements that are not known are inline and have one.

## Main definitions

* `Catalogue.isVoid` — elements without contents and closing tag.
* `Catalogue.style` — how an element is laid out.
-/

namespace TrustedHtml.Catalogue

/-- Elements without contents that stand on a line of their own. -/
def voidBlocks : List String :=
  ["area", "embed", "hr", "input", "keygen", "link", "meta", "param", "source", "track"]

/-- Elements without contents that are part of a line. -/
def voidInlines : List String :=
  ["base", "br", "command", "img", "wbr"]

/-- Elements with contents that stand on lines of their own. -/
def blocks : List String :=
  ["article", "address", "aside", "body", "blockquote", "button", "canvas", "caption", "code",
    "colgroup", "datalist", "dl", "fieldset", "figcaption", "figure", "footer", "form", "h1",
    "h2", "h3", "h4", "h5", "h6", "head", "header", "html", "hgroup", "iframe", "legend", "nav",
    "p", "ol", "optgroup", "samp", "script", "section", "style", "table", "tbody", "textarea",
    "tfoot", "thead", "title", "ul"]

/-- Whether elements of the given name have neither contents nor a closing tag. -/
def isVoid (name : String) : Bool :=
  voidBlocks.contains name || voidInlines.contains name

/-- How elements of the given name are laid out. -/
def style (name : String) : IndentStyle :=
  if voidBlocks.contains name || blocks.contains name then .block else .inline

end TrustedHtml.Catalogue
