import TrustedHtml.Error.Structure
import TrustedHtml.Values.Basic

/-!
# Node Trees

A page is described by a tree of nodes. Strings in it are either known or given by variables
that are bound later. Parts of the tree can be repeated for the rows of a subsection, and
alternatives can be chosen by the values that are rendered.

## Main definitions

* `Value` — a string or a variable.
* `Attribute`, `Element` — an element without its contents.
* `Condition` — decides between alternatives.
* `Node` — a tree.
-/

namespace TrustedHtml

/-- How an element is laid out. -/
inductive IndentStyle where
  /-- As part of the surrounding text. -/
  | inline
  /-- On a line of its own, with its contents indented by one more level. -/
  | block
deriving DecidableEq, Repr

/-- A string that is known, or one that is bound later. -/
inductive Value where
  | concrete (value : SafeString)
  | deferred (var : Var)
deriving DecidableEq

/-- How a value is described. -/
def Value.describe : Value → String
  | concrete value => value.describe
  | deferred var => var.describe

/-- An attribute of an element. -/
structure Attribute where
  name : String
  value : Value
  /-- Required in addition to what the name of the attribute requires. -/
  level : TrustLevel
deriving DecidableEq

/-- An element without its contents. -/
structure Element where
  name : String
  attributes : List Attribute
  style : IndentStyle
  /-- Without contents and closing tag. -/
  selfClosing : Bool
  /-- The same, written with a slash. -/
  xmlSelfClosing : Bool
  /-- The first error that arose when contents were added. -/
  error : Option StructureError
deriving DecidableEq

/-- Decides an alternative from the values being rendered. -/
abbrev Condition := ValueSet → Bool

namespace Condition

/-- The variable of the given name has a value that is not empty. -/
def isSet (name : String) : Condition := fun vs =>
  (vs.scalarByName name).any (· ≠ "")

/-- The variable of the given name has the given value. -/
def hasValue (name value : String) : Condition := fun vs =>
  vs.scalarByName name = some value

end Condition

/-- A tree of nodes. -/
inductive Node where
  | element (element : Element) (contents : List Node)
  /-- Text, reflowed to a width of its own if it has one; width 0 leaves it as it is. -/
  | text (value : Value) (width : Option Nat)
  /-- HTML that is inserted as it is. -/
  | raw (value : Value)
  /-- A group without markup of its own, with the first error that arose when contents were
  added. -/
  | multi (error : Option StructureError) (contents : List Node)
  /-- A part that is repeated for every row of the subsection `name`. -/
  | subsection (name : String) (prototype : Node)
  /-- The output of the first case whose condition holds, or the default if none does. A case
  without an output produces nothing. -/
  | switch (cases : List (Condition × Option Node)) (default : Option Node)

/-- The kind of a node. -/
def Node.kind : Node → NodeKind
  | element .. => .element
  | text .. => .text
  | raw .. => .raw
  | multi .. => .multi
  | subsection .. => .subsection
  | switch .. => .switch

end TrustedHtml
