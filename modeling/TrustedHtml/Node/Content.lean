import TrustedHtml.Node.Basic

/-!
# Contents

Nodes are built by adding contents to them: child nodes, attributes and options. A content
that does not fit a node is an error. Building goes on after an error, and the first one is
kept in the node until it is compiled.

## Main definitions

* `Content` — what can be added to a node.
* `Node.add` — adds a content, and gives the error if there is one.
* `Node.addAll` — adds contents in order, and gives the first error.
-/

namespace TrustedHtml

/-- What can be added to a node. -/
inductive Content where
  | node (node : Node)
  | attribute (value : Attribute)
  | indent (style : IndentStyle)
  | selfClosing
  /-- The element is not one of HTML: what follows from its name is taken back. -/
  | xmlElement
  /-- The width to which a text is reflowed. -/
  | width (width : Nat)

/-- The kind of a content. -/
def Content.kind : Content → ContentKind
  | .node _ => .node
  | .attribute _ => .attribute
  | .indent _ => .indent
  | .selfClosing => .selfClosing
  | .xmlElement => .xmlElement
  | .width _ => .width

namespace Node

/-- Add a content. A group added to a group is replaced by its members, also if it carries
an error, which is then an error of the addition. -/
def add (target : Node) (content : Content) : Node × Option StructureError :=
  match content, target with
  | .node (.multi error members), .multi kept contents =>
    (.multi kept (contents ++ members), error)
  | .node n, .element e contents => (.element e (contents ++ [n]), none)
  | .node n, .multi kept contents => (.multi kept (contents ++ [n]), none)
  | .node n, target => (target, some (.notAContainer n.kind target.kind))
  | .attribute a, .element e contents =>
    (.element { e with attributes := e.attributes ++ [a] } contents, none)
  | .indent style, .element e contents => (.element { e with style } contents, none)
  | .selfClosing, .element e contents => (.element { e with selfClosing := true } contents, none)
  | .xmlElement, .element e contents =>
    (.element { e with selfClosing := false, xmlSelfClosing := false } contents, none)
  | .width w, .text value _ => (.text value (some w), none)
  | content, target => (target, some (.invalidOption content.kind target.kind))

/-- Add contents in order, and give the first error. -/
def addAll (target : Node) : List Content → Node × Option StructureError
  | [] => (target, none)
  | content :: rest =>
    let (added, error) := target.add content
    let (built, later) := added.addAll rest
    (built, error <|> later)

/-- The node with an error kept for when it is compiled. -/
def keepError (error : Option StructureError) : Node → Node
  | .element e contents => .element { e with error } contents
  | .multi _ contents => .multi error contents
  | other => other

end Node

end TrustedHtml
