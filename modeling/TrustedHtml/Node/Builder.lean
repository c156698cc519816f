import TrustedHtml.Node.Catalogue
import TrustedHtml.Node.Content

/-!
# Building Trees

## Main definitions

* `Value.literal`, `Value.named` — strings that are known or bound later.
* `Node.ofElement` — an element with the defaults for its name and contents added to it.
* `Node.ofContents` — a group.
* `Attribute.ofName`, `Attribute.data` — attributes.
* `Node.htmlPage`, `Node.head` — a whole page.
-/

namespace TrustedHtml

namespace Value

/-- A literal of the program. -/
def literal (text : String) : Value := concrete (.constant text)

/-- The value of the variable of the given name. -/
def named (name : String) (name_ne : name ≠ "" := by simp) : Value :=
  deferred (.ofName ⟨name, name_ne⟩)

end Value

namespace Attribute

/-- An attribute that requires what its name requires. -/
def ofName (name : String) (value : Value) : Attribute :=
  ⟨name, value, .untrusted⟩

/-- The attribute `data-` followed by `name`, which requires the given level. -/
def data (name : String) (value : Value) (level : TrustLevel) : Attribute :=
  ⟨"data-" ++ name, value, level⟩

end Attribute

namespace Node

/-- An element with the defaults for its name and contents added in order. -/
def ofElement (name : String) (contents : List Content) : Node :=
  let bare : Element := ⟨name, [], Catalogue.style name, Catalogue.isVoid name, false, none⟩
  let (built, error) := (element bare []).addAll contents
  built.keepError error

/-- A group with contents added in order. -/
def ofContents (contents : List Content) : Node :=
  let (built, error) := (multi none []).addAll contents
  built.keepError error

/-- Text that is reflowed as the options say. -/
def ofText (value : Value) : Node := text value none

/-- Text that is a literal of the program. -/
def literal (s : String) : Node := ofText (.literal s)

/-- The head of a page, which begins with the declaration of its encoding. -/
def head (contents : List Content) : Node :=
  let encoding := ofElement "meta" [.attribute (.ofName "charset" (.literal "utf-8"))]
  ofElement "head" (.node encoding :: contents)

/-- A whole page: the document type, and the root element with `head`, `body` and further
contents. -/
def htmlPage (head body : Node) (contents : List Content) : Node :=
  ofContents [.node (text (.literal "<!doctype html>") (some 0)),
    .node (ofElement "html" (.node head :: .node body :: contents))]

end Node

end TrustedHtml
