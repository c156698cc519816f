import TrustedHtml.Trust.Error

/-!
# Handles

Variables and subsections of a schema are addressed through handles, which carry the place
of what they name and the identity of the schema they were declared in. A handle of one
schema does not fit another one, whatever the names.

## Main definitions

* `SlotName` — the name of a variable or a subsection, which is never empty.
* `SchemaId` — the identity of a schema.
* `Var` — a handle to a variable, attached to a schema or free.
* `Tag` — a handle to a subsection.
-/

namespace TrustedHtml

/-- A name of a variable or a subsection. -/
structure SlotName where
  text : String
  text_ne : text ≠ ""
deriving DecidableEq

/-- The name with the given text, if that is not empty. -/
def SlotName.ofString? (text : String) : Option SlotName :=
  if h : text = "" then none else some ⟨text, h⟩

/-- The identity of a schema, by the order in which schemas came into being. A counter of 32 bits
gives them out and begins again when it is full, so numbers without a bound stand for fewer than
2^32 schemas. -/
structure SchemaId where
  number : Nat
deriving DecidableEq, Repr

instance : ToString SchemaId := ⟨fun id => s!"#{id.number}"⟩

/-- A handle to a variable: its place in a schema and the level it was declared with. A free
variable has a name only, and has to be attached to a schema before it has a value. -/
structure Var where
  index : Nat
  name : SlotName
  /-- The level at the time the handle was made; later declarations can have raised it. -/
  level : TrustLevel
  schema : Option SchemaId
deriving DecidableEq

namespace Var

/-- A variable that is in no schema yet. -/
def ofName (name : SlotName) : Var :=
  ⟨0, name, .untrusted, none⟩

/-- How a handle is described. -/
def describe (v : Var) : String :=
  match v.schema with
  | some id =>
    s!"Var\x7b{v.index}, {Text.quoted v.name.text}, {v.level}, schema {id}\x7d"
  | none => s!"Var\x7bfree, {Text.quoted v.name.text}\x7d"

end Var

/-- A handle to a nested, repeated subsection. -/
structure Tag where
  index : Nat
  name : SlotName
  /-- The schema the subsection is declared in. -/
  parent : SchemaId
  /-- The schema of the rows. -/
  child : SchemaId
deriving DecidableEq

/-- How a handle is described. -/
def Tag.describe (t : Tag) : String :=
  s!"Tag\x7b{t.index}, {Text.quoted t.name.text}, schema {t.child} in {t.parent}\x7d"

end TrustedHtml
