import TrustedHtml.Text.Quoted

/-!
# Errors of Structure

A tree of nodes can be put together wrongly: a content is added to a node that cannot hold
it, or a name is not one that can be written into a page.

## Main definitions

* `NodeKind`, `ContentKind`, `NameKind` — what errors speak about.
* `StructureError` — why a tree is malformed.
* `StructureError.message` — the text under which it is reported.
-/

namespace TrustedHtml

/-- The kinds of nodes. -/
inductive NodeKind where
  | element
  | text
  | raw
  | multi
  | subsection
  | switch
deriving DecidableEq, Repr

/-- The name of a kind of node. -/
def NodeKind.name : NodeKind → String
  | .element => "element"
  | .text => "text"
  | .raw => "raw"
  | .multi => "multi"
  | .subsection => "subsection"
  | .switch => "switch"

/-- The kinds of contents that can be added to a node. -/
inductive ContentKind where
  | node
  | attribute
  | indent
  | selfClosing
  | xmlElement
  | width
deriving DecidableEq, Repr

/-- The name of a kind of content. -/
def ContentKind.name : ContentKind → String
  | .node => "node"
  | .attribute => "attribute"
  | .indent => "Indent"
  | .selfClosing => "SelfClosing"
  | .xmlElement => "XmlElement"
  | .width => "Width"

/-- The kinds of names that are checked before they are written. -/
inductive NameKind where
  | element
  | attribute
  | subsection
deriving DecidableEq, Repr

/-- The name of a kind of name. -/
def NameKind.name : NameKind → String
  | .element => "element"
  | .attribute => "attribute"
  | .subsection => "subsection"

/-- A tree of nodes is malformed. -/
inductive StructureError where
  /-- An element without a closing tag has contents. -/
  | selfClosingWithContents (name : String)
  /-- An option does not apply to a kind of node. -/
  | invalidOption (option : ContentKind) (node : NodeKind)
  /-- A node was added to a node that holds none. -/
  | notAContainer (node target : NodeKind)
  /-- A name cannot be written. -/
  | invalidName (kind : NameKind) (name : String)
deriving DecidableEq, Repr

/-- The text under which an error is reported. -/
def StructureError.message : StructureError → String
  | .selfClosingWithContents name => s!"self-closing element <{name}> cannot have contents"
  | .invalidOption option node =>
    s!"{option.name} option cannot be applied to {node.name} node"
  | .notAContainer node target =>
    s!"{node.name} node can only be added to element or multi nodes, not to {target.name} node"
  | .invalidName kind name => s!"invalid {kind.name} name {Text.quoted name}"

end TrustedHtml
